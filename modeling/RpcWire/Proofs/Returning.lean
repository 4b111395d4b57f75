import RpcWire.Proofs.Accounts
import RpcWire.Proofs.Retrying
import RpcWire.Proofs.Reusing

/-! A call gives its connection back once, however the exchange ends, and the connection lies idle only if the other
side and the client still agree on what comes next. -/
namespace RpcWire

/-! ## Requests -/

namespace Endpoint
variable {κ : Type}

private theorem faultless_write (bytes : Bytes) : Faultless (write bytes : CodecM κ Unit) :=
  faultless_onChannel (.modify _)

private theorem faultless_writeByte (byte : UInt8) : Faultless (writeByte byte : CodecM κ Unit) :=
  faultless_onChannel (.modify _)

private theorem faultless_checkWritable (size : Nat) : Faultless (checkWritable size : CodecM κ Unit) :=
  .ite (.throw nofun) (.pure ())

end Endpoint

open Endpoint in
private theorem WireM.faultless_writeMessageBegin (header : MessageHeader) :
    Faultless (writeMessageBegin header) := by
  refine faultless_dispatch ((faultless_write _).seq (Fails.seq ?_ (faultless_write _)))
    ((faultless_writeByte _).seq (.get fun _ => (faultless_writeByte _).seq ((faultless_write _).seq ?_)))
  · exact ((faultless_checkWritable _).seq (faultless_write _)).seq (faultless_write _)
  · exact ((faultless_checkWritable _).seq (faultless_write _)).seq (faultless_write _)

/-- Sending makes up no fault: it fails with one only where the writing of the body does. -/
theorem Session.faultless_send {body : WireM Unit} (header : MessageHeader) (h : Faultless body) :
    Faultless (send header body) := by
  intro session err after hrun
  rw [send_eq] at hrun
  exact Fails.onPart ((WireM.faultless_writeMessageBegin header).seq (h.seq
    (Endpoint.faultless_onChannel Channel.faultless_flush))) hrun

namespace Connection
variable {α : Type} {call : Call α} {connection after : Connection}

private theorem sendRequest_ne_fault (h : Faultless call.arguments) (fault : Fault) :
    sendRequest call connection ≠ .error (.fault fault) after := by
  intro hrun
  rw [sendRequest_eq] at hrun
  split at hrun
  · cases hrun
  · rw [onSession] at hrun
    split at hrun
    · cases hrun
    · next err session hsend =>
      injection hrun with herr _
      rw [ofWriteError] at herr
      split at herr
      · cases herr
      · exact ClientError.ofWire_ne_fault (Session.faultless_send _ h hsend) fault herr

/-- A connection is kept only if the request went out whole. -/
theorem sent_of_keeps {peer : Stream → Stream} (h : Faultless call.arguments)
    (keeps : Keeps (exchange peer call connection) after) : ∃ asked, sendRequest call connection = .ok () asked := by
  cases hsent : sendRequest call connection with
  | ok _ asked => exact ⟨asked, rfl⟩
  | error err asked =>
    have htry : tryExchange peer call connection = .error err asked := bind_of_error hsent
    rw [exchange, htry] at keeps
    cases err with
    | fault fault => exact absurd hsent (sendRequest_ne_fault h fault)
    | _ => cases keeps.of_error.1

end Connection

/-! ## Exchanges -/

namespace Connection
variable {α : Type} {connection middle after : Connection}

/-- The same connection later on: only its session and the number of its last request may differ. -/
def Later (connection after : Connection) : Prop :=
  after = { connection with session := after.session, lastSeqId := after.lastSeqId }

private theorem Later.refl (connection : Connection) : connection.Later connection := rfl

private theorem Later.trans (h : connection.Later middle) (h' : middle.Later after) :
    connection.Later after := by
  rw [Later] at h h' ⊢
  rw [h', h]

private theorem Later.address (h : connection.Later after) : after.address = connection.address := by rw [h]

/-- What works on the session of a connection leaves the rest. -/
theorem Later.maintains_onSession (convert : WireError → ClientError) (act : SessionM α) :
    Maintains connection.Later (onSession convert act) := by
  intro before hbefore
  rw [onSession]
  cases act before.session <;> exact hbefore.trans rfl

private theorem Later.maintains_sendRequest (call : Call α) :
    Maintains connection.Later (sendRequest call) := by
  intro before hbefore
  rw [sendRequest_eq]
  split
  · exact hbefore
  · exact maintains_onSession _ _ (hbefore.trans (rfl : before.Later (before.prepared call)))

private theorem Later.maintains_receiveReply (call : Call α) : Maintains connection.Later (receiveReply call) :=
  .get fun _ _ => (maintains_onSession _ _).bind fun _ =>
    .check (.check (.check (maintains_onSession _ _)))

private theorem Later.maintains_tryExchange (peer : Stream → Stream) (call : Call α) :
    Maintains connection.Later (tryExchange peer call) := by
  refine (maintains_sendRequest call).bind fun _ => Maintains.bind (.modify fun _ h => h.trans rfl) fun _ => ?_
  exact .ite (.pure _) ((maintains_receiveReply call).bind fun _ => .pure _)

def outcome (peer : Stream → Stream) (call : Call α) (connection : Connection) :
    Except ClientError (Option α) × Connection :=
  match exchange peer call connection with
  | .ok reply after => (.ok reply, after)
  | .error err after => (.error err, after)

/-- The connection is the one that made the exchange, and it is not newly marked exactly if the exchange came to a
reply, to none where none is due, or to a fault. -/
theorem outcome_later (peer : Stream → Stream) (call : Call α) (connection : Connection) :
    (Keeps (exchange peer call connection) (connection.outcome peer call).2 ∧
      connection.Later (connection.outcome peer call).2) ∨
    (∀ after, ¬Keeps (exchange peer call connection) after) ∧
      ∃ last, connection.Later last ∧ (connection.outcome peer call).2 = last.markFailed := by
  have hlater : Maintains connection.Later (tryExchange peer call) := Later.maintains_tryExchange peer call
  cases htry : tryExchange peer call connection with
  | ok reply after =>
    have hrun : exchange peer call connection = .ok reply after := by rw [exchange, htry]
    rw [outcome, hrun]
    exact .inl ⟨.inl ⟨reply, rfl⟩, hlater.of_ok htry (.refl connection)⟩
  | error err after =>
    have hlater := hlater.of_error htry (.refl connection)
    have hrun : exchange peer call connection =
        .error err (if err.keepsConnection then after else after.markFailed) := by
      rw [exchange, htry]
    rw [outcome, hrun]
    by_cases hfault : ∃ fault, err = .fault fault
    · obtain ⟨fault, rfl⟩ := hfault
      exact .inl ⟨.inr ⟨fault, rfl⟩, hlater⟩
    · have hkeeps : err.keepsConnection = false := by
        cases err with
        | fault fault => exact absurd ⟨fault, rfl⟩ hfault
        | _ => rfl
      refine .inr ⟨fun last hlast => ?_, after, hlater, by rw [hkeeps, if_neg Bool.false_ne_true]⟩
      rw [hlast.of_error.1] at hkeeps
      cases hkeeps

end Connection

namespace Pool
variable {pool : Pool} {connection : Connection} {now : Nat}

structure Accepts (pool : Pool) (now : Nat) (connection : Connection) : Prop where
  sound : connection.failed = false
  opened : pool.closed = false
  lasting : connection.isExpired pool.settings now = false
  room : (pool.idle connection.address).length < pool.settings.maxIdle

/-- A connection that is given back is closed unless all that it needs is there. -/
theorem put_iff_accepts (now : Nat) (hknown : pool.slots connection.address ≠ none) :
    (¬pool.Accepts now connection ∧ pool.put now connection = (.closed, pool.setSlots connection.address
        ⟨pool.idle connection.address, pool.active connection.address - 1⟩)) ∨
    pool.Accepts now connection ∧ pool.put now connection = (.kept, pool.setSlots connection.address
        ⟨connection.release now :: pool.idle connection.address, pool.active connection.address⟩) := by
  rcases pool.put_cases now hknown with hput | ⟨hsound, hopened, hlasting, hroom, hput⟩
  · refine .inl ⟨fun haccepts => ?_, hput⟩
    cases hslots : pool.slots connection.address with
    | none => exact hknown hslots
    | some slots =>
      have hroom : slots.idle.length < pool.settings.maxIdle := by
        simpa only [idle, hslots, Option.getD_some] using haccepts.room
      rw [put, hslots] at hput
      simp [haccepts.sound, haccepts.opened, haccepts.lasting, Nat.not_le.mpr hroom] at hput
  · exact .inr ⟨⟨hsound, hopened, hlasting, hroom⟩, hput⟩

end Pool

/-- What becomes of a connection that a call was made on, and of its slot: one of three things. -/
inductive Fate (now : Nat) (connection : Connection) (pool : Pool) : Option Disposal → Pool → Prop where
  | idle (last : Connection) (later : connection.Later last) (accepts : pool.Accepts now last) :
    Fate now connection pool (some .kept) (pool.setSlots connection.address
      ⟨last.release now :: pool.idle connection.address, pool.active connection.address⟩)
  | destroyed : Fate now connection pool (some .closed) (pool.setSlots connection.address
      ⟨pool.idle connection.address, pool.active connection.address - 1⟩)
  | forgotten : Fate now connection pool (some .lost) (pool.forget connection.address)

namespace Client
variable {α : Type} {circumstances : Circumstances} {call : Call α} {connection held : Connection} {place : Nat}
  {lending : Lending}

def givenBack (circumstances : Circumstances) (call : Call α) (connection : Connection) : Option Connection :=
  match circumstances.unprepared, circumstances.crash, circumstances.stop with
  | some _, _, _ => some connection.markFailed
  | none, some _, _ => none
  | none, none, some _ => some (connection.outcome circumstances.peer call).2.markFailed
  | none, none, none => some (connection.outcome circumstances.peer call).2

/-- What a call answers. Why it was given up comes before all that the exchange may end in. -/
def answer (circumstances : Circumstances) (call : Call α) (connection : Connection) : Except ClientError (Option α) :=
  match circumstances.unprepared, circumstances.stop, circumstances.crash with
  | some cause, _, _ => .error (.io cause)
  | none, some stop, _ => .error stop.error
  | none, none, some text => .error (.taskFailed text)
  | none, none, none => (connection.outcome circumstances.peer call).1

private theorem result_run (circumstances : Circumstances) (call : Call α) (connection : Connection)
    (pool : Pool) :
    (run circumstances call connection pool).result = answer circumstances call connection := by
  rw [run.eq_def, answer, Connection.outcome]
  cases circumstances.unprepared with
  | some cause => rfl
  | none =>
    cases circumstances.crash with
    | some text => cases circumstances.stop <;> rfl
    | none =>
      cases Connection.exchange circumstances.peer call connection <;> cases circumstances.stop <;> rfl

private theorem run_of_givenBack {last : Connection} (h : givenBack circumstances call connection = some last)
    (pool : Pool) :
    (run circumstances call connection pool).disposal = some (pool.put circumstances.returned last).1 ∧
      (run circumstances call connection pool).pool = (pool.put circumstances.returned last).2 := by
  rw [givenBack, Connection.outcome] at h
  rw [run.eq_def]
  cases hprepared : circumstances.unprepared with
  | some cause =>
    rw [hprepared] at h
    cases h
    exact ⟨rfl, rfl⟩
  | none =>
    rw [hprepared] at h
    cases hcrash : circumstances.crash with
    | some text =>
      rw [hcrash] at h
      cases h
    | none =>
      rw [hcrash] at h
      cases hrun : Connection.exchange circumstances.peer call connection <;> cases hstop : circumstances.stop <;>
        rw [hrun, hstop] at h <;> cases h <;> exact ⟨rfl, rfl⟩

private theorem run_of_lost (h : givenBack circumstances call connection = none) (pool : Pool) :
    (run circumstances call connection pool).disposal = some .lost ∧
      (run circumstances call connection pool).pool = pool.forget connection.address := by
  rw [givenBack] at h
  rw [run.eq_def]
  cases hprepared : circumstances.unprepared with
  | some cause =>
    rw [hprepared] at h
    cases h
  | none =>
    rw [hprepared] at h
    cases hcrash : circumstances.crash with
    | some text => exact ⟨rfl, rfl⟩
    | none =>
      rw [hcrash] at h
      cases hstop : circumstances.stop <;> rw [hstop] at h <;> cases h

/-- Nothing went wrong with a call, which left its connection so: the socket was prepared, the exchange came to a reply
or a fault, and nobody gave the call up. -/
structure Unharmed (circumstances : Circumstances) (call : Call α) (connection last : Connection) : Prop where
  prepared : circumstances.unprepared = none
  alive : circumstances.crash = none
  unstopped : circumstances.stop = none
  keeps : Connection.Keeps (Connection.exchange circumstances.peer call connection) last

/-- A call gives its connection back, unless it crashed; and where something went wrong, it marks it before. -/
theorem givenBack_cases (circumstances : Circumstances) (call : Call α) (connection : Connection) :
    (givenBack circumstances call connection = none ∧ circumstances.unprepared = none ∧ circumstances.crash ≠ none) ∨
    (circumstances.unprepared = none → circumstances.crash = none) ∧ ∃ last, connection.Later last ∧
      ((givenBack circumstances call connection = some last ∧ Unharmed circumstances call connection last) ∨
        givenBack circumstances call connection = some last.markFailed ∧
          ∀ other, ¬Unharmed circumstances call connection other) := by
  rw [givenBack]
  cases hprepared : circumstances.unprepared with
  | some cause =>
    refine .inr ⟨nofun, connection, .refl _, .inr ⟨rfl, fun _ h => ?_⟩⟩
    cases hprepared.symm.trans h.prepared
  | none =>
    cases hcrash : circumstances.crash with
    | some text => exact .inl ⟨rfl, rfl, nofun⟩
    | none =>
      refine .inr ⟨fun _ => rfl, ?_⟩
      have houtcome := connection.outcome_later circumstances.peer call
      cases hstop : circumstances.stop with
      | some stop =>
        have hharmed (other : Connection) (h : Unharmed circumstances call connection other) : False := by
          cases hstop.symm.trans h.unstopped
        rcases houtcome with ⟨-, hlater⟩ | ⟨-, last, hlater, hlast⟩
        · exact ⟨_, hlater, .inr ⟨rfl, hharmed⟩⟩
        · exact ⟨last, hlater, .inr ⟨by rw [hlast]; rfl, hharmed⟩⟩
      | none =>
        rcases houtcome with ⟨hkeeps, hlater⟩ | ⟨hkeeps, last, hlater, hlast⟩
        · exact ⟨_, hlater, .inl ⟨rfl, hprepared, hcrash, hstop, hkeeps⟩⟩
        · exact ⟨last, hlater, .inr ⟨by rw [hlast], fun other h => hkeeps other h.keeps⟩⟩

/-- What the end of a call does with its connection, which has its place among those that callers hold. -/
structure GivesBack (circumstances : Circumstances) (call : Call α) (connection : Connection) (place : Nat)
    (lending : Lending) (attempt : Attempt α) : Prop where
  /-- The connection has a slot. -/
  counted : 0 < lending.pool.active connection.address
  /-- One of three things happens to it. -/
  fate : Fate circumstances.returned connection lending.pool attempt.disposal attempt.pool
  /-- It happens at once, and nobody holds the connection any more. -/
  event : ∃ event, Lending.step event lending =
    { lending with pool := attempt.pool, held := lending.held.eraseIdx place }
  /-- The connection lies idle exactly if nothing went wrong and the pool has a use for it. -/
  idle_iff : attempt.disposal = some .kept ↔
    ∃ last, Unharmed circumstances call connection last ∧ lending.pool.Accepts circumstances.returned last
  lost_iff : attempt.disposal = some .lost ↔ circumstances.unprepared = none ∧ circumstances.crash ≠ none
  /-- A connection on which a request went out in part does not lie idle. -/
  whole : Faultless call.arguments → attempt.disposal = some .kept → sends call connection = true
  /-- A call that is given up answers why, and closes its connection. -/
  stopped : ∀ stop, circumstances.stop = some stop → circumstances.unprepared = none →
    attempt.result = .error stop.error ∧ attempt.disposal ≠ some .kept
  answered : attempt.result = answer circumstances call connection

/-- The end of a call is one event of the pool and its callers. -/
theorem run_event (circumstances : Circumstances) (call : Call α) (hplace : lending.held[place]? = some held)
    {session : Session} {lastSeqId : Int32} {failed : Bool}
    (hconnection : connection = Lending.used session lastSeqId failed held) :
    ∃ event, Lending.step event lending =
      { lending with
        pool := (run circumstances call connection lending.pool).pool
        held := lending.held.eraseIdx place } := by
  have hput {last later : Connection} (hlater : connection.Later later) (hmark : last = later ∨ last = later.markFailed)
      (hlast : givenBack circumstances call connection = some last) : ∃ event, Lending.step event lending =
        { lending with
          pool := (run circumstances call connection lending.pool).pool, held := lending.held.eraseIdx place } := by
    have hused : Lending.used last.session last.lastSeqId last.failed held = last := by
      rcases hmark with rfl | rfl
      · rw [hlater, hconnection]
        rfl
      · rw [hlater, hconnection]
        rfl
    refine ⟨.put place circumstances.returned last.session last.lastSeqId last.failed, ?_⟩
    rw [(run_of_givenBack hlast lending.pool).2]
    simp only [Lending.step, hplace, hused]
  rcases givenBack_cases circumstances call connection with ⟨hnone, -, -⟩ | ⟨-, last, hlater, ⟨hlast, -⟩ | ⟨hlast, -⟩⟩
  · refine ⟨.forget place, ?_⟩
    rw [(run_of_lost hnone lending.pool).2, hconnection]
    simp only [Lending.step, hplace]
    rfl
  · exact hput hlater (.inl rfl) hlast
  · exact hput hlater (.inr rfl) hlast

private theorem Unharmed.unique {last other : Connection} (h : Unharmed circumstances call connection last)
    (h' : Unharmed circumstances call connection other) : last = other := by
  have hkeeps := h.keeps
  rcases h'.keeps with ⟨_, hother⟩ | ⟨_, hother⟩
  · exact (hother ▸ hkeeps).of_ok
  · exact (hother ▸ hkeeps).of_error.2

/-- What becomes of a connection to an address that the pool knows. -/
theorem fate_run (circumstances : Circumstances) (call : Call α) {pool : Pool}
    (hknown : pool.slots connection.address ≠ none) :
    Fate circumstances.returned connection pool (run circumstances call connection pool).disposal
        (run circumstances call connection pool).pool ∧
      ((run circumstances call connection pool).disposal = some .kept ↔
        ∃ last, Unharmed circumstances call connection last ∧ pool.Accepts circumstances.returned last) ∧
      ((run circumstances call connection pool).disposal = some .lost ↔
        circumstances.unprepared = none ∧ circumstances.crash ≠ none) := by
  rcases givenBack_cases circumstances call connection with
    ⟨hnone, hprepared, hcrash⟩ | ⟨halive, last, hlater, ⟨hlast, hunharmed⟩ | ⟨hlast, hharmed⟩⟩
  · obtain ⟨hdisposal, hpool⟩ := run_of_lost hnone pool
    rw [hdisposal, hpool]
    exact ⟨.forgotten, ⟨nofun, fun ⟨_, hunharmed, _⟩ => absurd hunharmed.alive hcrash⟩,
      ⟨fun _ => ⟨hprepared, hcrash⟩, fun _ => rfl⟩⟩
  · obtain ⟨hdisposal, hpool⟩ := run_of_givenBack hlast pool
    rw [hdisposal, hpool]
    rcases pool.put_iff_accepts circumstances.returned (hlater.address.symm ▸ hknown) with
      ⟨hrefused, hput⟩ | ⟨haccepts, hput⟩
    · rw [hput, hlater.address]
      refine ⟨.destroyed, ⟨nofun, fun ⟨other, hother, haccepts⟩ => ?_⟩, ⟨nofun, fun ⟨hp, hc⟩ => absurd (halive hp) hc⟩⟩
      exact absurd (hunharmed.unique hother ▸ haccepts) hrefused
    · rw [hput, hlater.address]
      exact ⟨.idle last hlater haccepts, ⟨fun _ => ⟨last, hunharmed, haccepts⟩, fun _ => rfl⟩,
        ⟨nofun, fun ⟨hp, hc⟩ => absurd (halive hp) hc⟩⟩
  · obtain ⟨hdisposal, hpool⟩ := run_of_givenBack hlast pool
    rw [hdisposal, hpool]
    have haddress : last.markFailed.address = connection.address := hlater.address
    rcases pool.put_iff_accepts circumstances.returned (haddress.symm ▸ hknown) with ⟨-, hput⟩ | ⟨haccepts, -⟩
    · rw [hput, haddress]
      exact ⟨.destroyed, ⟨nofun, fun ⟨other, hother, _⟩ => absurd hother (hharmed other)⟩,
        ⟨nofun, fun ⟨hp, hc⟩ => absurd (halive hp) hc⟩⟩
    · cases haccepts.sound

private theorem givesBack_of_balanced (circumstances : Circumstances) (call : Call α) (h : lending.Balanced)
    (hplace : lending.held[place]? = some held) {session : Session} {lastSeqId : Int32} {failed : Bool}
    (hconnection : connection = Lending.used session lastSeqId failed held) :
    GivesBack circumstances call connection place lending (run circumstances call connection lending.pool) := by
  obtain ⟨earlier, later, hheld, -⟩ := Lending.split_of_getElem? hplace
  have haddress : connection.address = held.address := by rw [hconnection]; rfl
  obtain ⟨hfate, hidle, hlost⟩ := fate_run circumstances call (haddress ▸ Lending.slots_ne_none h hheld)
  have hanswered := result_run circumstances call connection lending.pool
  refine ⟨haddress ▸ Lending.active_pos h hplace, hfate, run_event circumstances call hplace hconnection, hidle, hlost,
    fun hfaultless hkept => ?_, fun stop hstop hprepared => ⟨?_, fun hkept => ?_⟩, hanswered⟩
  · obtain ⟨last, hunharmed, -⟩ := hidle.mp hkept
    obtain ⟨asked, hsent⟩ := Connection.sent_of_keeps hfaultless hunharmed.keeps
    rw [sends, hsent]
  · rw [hanswered, answer, hprepared, hstop]
  · obtain ⟨last, hunharmed, -⟩ := hidle.mp hkept
    cases hstop.symm.trans hunharmed.unstopped

/-- Whatever the pool and its callers have done, in whatever order: a call gives the connection that it was made on back
once. It lies idle only after a reply or a fault, where nobody gave the call up and the pool has a use for it; and a
call that was given up says so, whatever its exchange ended in. -/
theorem run_givesBack (settings : PoolSettings) (events : List Lending.Event) (place : Nat) (held : Connection)
    (session : Session) (lastSeqId : Int32) (failed : Bool) (circumstances : Circumstances) (call : Call α)
    (hheld : (Lending.run events ⟨{ settings }, [], []⟩).held[place]? = some held) :
    let lending := Lending.run events ⟨{ settings }, [], []⟩
    let connection := Lending.used session lastSeqId failed held
    GivesBack circumstances call connection place lending (run circumstances call connection lending.pool) :=
  givesBack_of_balanced circumstances call (Lending.run_balanced (Lending.balanced_start settings) events) hheld rfl

/-- The reply to a search leaves its connection idle; where the call is given up meanwhile, the same reply is dropped
and the connection is closed. -/
theorem run_givesBack_search :
    let lending := Lending.run [.take 0 .loopback, .opened 0 0 (.ok .connected)] ⟨{ settings := {} }, [], []⟩
    let circumstances (stop : Option Stop) : Circumstances :=
      { dialed := .error .timeout, peer := (Stream.push · (Connection.searchReply 40)), stop }
    ∃ held, lending.held[0]? = some held ∧
      (∀ stop, GivesBack (circumstances stop) (Connection.search {}) held 0 lending
        (run (circumstances stop) (Connection.search {}) held lending.pool)) ∧
      (run (circumstances none) (Connection.search {}) held lending.pool).disposal = some .kept ∧
      (run (circumstances (some .deadline)) (Connection.search {}) held lending.pool).disposal = some .closed ∧
      (run (circumstances (some .deadline)) (Connection.search {}) held lending.pool).result =
        .error .deadlineExceeded := by
  refine ⟨_, rfl, fun stop => ?_, by decide +kernel, by decide +kernel, rfl⟩
  exact run_givesBack {} [.take 0 .loopback, .opened 0 0 (.ok .connected)] 0 _ _ _ _ _ (Connection.search {}) rfl

end Client
end RpcWire
