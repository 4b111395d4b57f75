import Mathlib.Data.List.Induction
import RpcWire.Proofs.Returning

/-! What a pool counts as time without use. A connection that lies idle has lain there since its last release, and one
that is too long there is closed when it is looked at. But the same measure is taken of a connection that is given back,
so the time for which it was in use counts as well. -/
namespace RpcWire

/-- A connection just opened has not been released. -/
theorem Pool.releasedAt_opened {pool after : Pool} {now : Nat} {address : SocketAddress}
    {dialed : Except ClientError Stream} {connection : Connection}
    (h : pool.opened now address dialed = (.ok connection, after)) : connection.releasedAt = none := by
  rw [opened] at h
  split at h
  · next made hmade =>
    obtain ⟨rfl, -⟩ := Prod.mk.inj h |>.imp Except.ok.inj id
    cases dialed with
    | error err => cases hmade
    | ok stream =>
      simp only [Except.bind, Connection.ofStream?, bind] at hmade
      split at hmade
      · cases hmade
      · cases hmade
        rfl
  · cases h

/-- Neither too old nor without use for too long. -/
theorem Connection.isExpired_eq_false_iff (settings : PoolSettings) (now : Nat) (connection : Connection) :
    connection.isExpired settings now = false ↔ (∀ age ∈ settings.maxAge, now - connection.openedAt < age) ∧
      ∀ timeout ∈ settings.idleTimeout, ∀ since ∈ connection.releasedAt, now - since < timeout := by
  rw [isExpired]
  cases settings.maxAge <;> cases settings.idleTimeout <;> cases connection.releasedAt <;> simp

namespace Lending
variable {lending : Lending} {event : Event} {connection : Connection} {address : SocketAddress}
  {place : Option SocketAddress}

def Event.clock? : Event → Option Nat
  | .take now _ => some now
  | .opened _ now _ => some now
  | .put _ now _ _ _ => some now
  | _ => none

def laid? (event : Event) (lending : Lending) : Option (Nat × Nat) :=
  match event with
  | .put place now session lastSeqId failed =>
    match lending.held[place]? with
    | none => none
    | some connection =>
      if (lending.pool.put now (used session lastSeqId failed connection)).1 = .kept then some (connection.serial, now)
      else none
  | _ => none

def releases : List Event → Lending → List (Nat × Nat)
  | [], _ => []
  | event :: events, lending => releases events (step event lending) ++ (laid? event lending).toList

def connectionsAt (lending : Lending) : Option SocketAddress → List Connection
  | none => lending.held
  | some address => lending.pool.idle address

/-- Where a connection was before an event. -/
inductive Origin (event : Event) (lending : Lending) : Option SocketAddress → Connection → Prop where
  /-- It was idle there, or held. -/
  | stayed (place : Option SocketAddress) (connection : Connection) (hmem : connection ∈ lending.connectionsAt place)
      (hother : ∀ laid ∈ laid? event lending, laid.1 ≠ connection.serial) : Origin event lending place connection
  | taken (address : SocketAddress) (connection : Connection) (hmem : connection ∈ lending.pool.idle address)
      (hnone : laid? event lending = none) : Origin event lending none connection
  | opened (connection : Connection) (hserial : connection.serial = lending.pool.made)
      (hnever : connection.releasedAt = none) (hnone : laid? event lending = none) :
    Origin event lending none connection
  | laid (now : Nat) (session : Session) (lastSeqId : Int32) (held : Connection) (hheld : held ∈ lending.held)
      (hlaid : laid? event lending = some (held.serial, now)) (index : Nat)
      (hevent : event = .put index now session lastSeqId false) :
    Origin event lending (some held.address) ((used session lastSeqId false held).release now)

/-- A connection that is given back is not among those still held. -/
theorem Balanced.serial_ne_of_removed {back : Connection} {earlier later : List Connection} (h : lending.Balanced)
    (hheld : lending.held = earlier ++ back :: later) (hmem : connection ∈ earlier ++ later) :
    back.serial ≠ connection.serial := by
  have honce := h.apart.once none
  rw [serials, hheld, List.map_append, List.map_cons, List.perm_middle.nodup_iff, List.nodup_cons,
    ← List.map_append] at honce
  exact fun heq => honce.1 (heq ▸ List.mem_map_of_mem hmem)

/-- A held connection is not idle. -/
theorem Balanced.serial_ne_of_idle {held : Connection} (h : lending.Balanced) (hheld : held ∈ lending.held)
    (hmem : connection ∈ lending.pool.idle address) : held.serial ≠ connection.serial := by
  have happart := h.apart.apart none (some address) nofun held.serial (List.mem_map_of_mem hheld)
  exact fun heq => happart (heq ▸ List.mem_map_of_mem hmem)

theorem origin_put (h : lending.Balanced) {index now : Nat} {session : Session} {lastSeqId : Int32} {failed : Bool}
    (hmem : connection ∈ (step (.put index now session lastSeqId failed) lending).connectionsAt place) :
    Origin (.put index now session lastSeqId failed) lending place connection := by
  cases hindex : lending.held[index]? with
  | none =>
    have hsame : step (.put index now session lastSeqId failed) lending = lending := by simp only [step, hindex]
    rw [hsame] at hmem
    exact .stayed place connection hmem (by simp [laid?, hindex])
  | some back =>
    obtain ⟨earlier, later, hheld, hrest⟩ := split_of_getElem? hindex
    have hback : back ∈ lending.held := hheld ▸ List.mem_append_right _ List.mem_cons_self
    have hother : ∀ laid ∈ laid? (.put index now session lastSeqId failed) lending, laid.1 = back.serial := by
      simp only [laid?, hindex]
      split
      · rintro _ ⟨⟩
        rfl
      · rintro _ ⟨⟩
    have hstayed (hold : connection ∈ lending.connectionsAt place) (hne : back.serial ≠ connection.serial) :
        Origin (.put index now session lastSeqId failed) lending place connection :=
      .stayed place connection hold fun laid hlaid => hother laid hlaid ▸ hne
    cases place with
    | none =>
      simp only [step, hindex, connectionsAt, hrest] at hmem
      refine hstayed ?_ (h.serial_ne_of_removed hheld hmem)
      rw [connectionsAt, hheld]
      exact (sublist_removed earlier later back).subset hmem
    | some address =>
      have hidle (hold : connection ∈ lending.pool.idle address) := hstayed hold (h.serial_ne_of_idle hback hold)
      simp only [step, hindex, connectionsAt] at hmem
      rcases @put_of_held _ _ _ _ now (used session lastSeqId failed back) h hheld rfl with
        hput | ⟨hfailed, -, -, hput⟩
      · rw [hput, Pool.idle_setSlots] at hmem
        refine hidle ?_
        split at hmem
        · next heq => rwa [heq]
        · exact hmem
      · obtain rfl : failed = false := hfailed
        rw [hput, Pool.idle_setSlots] at hmem
        split at hmem
        · next heq =>
          subst heq
          rcases List.mem_cons.mp hmem with rfl | hold
          · exact .laid now session lastSeqId back hback (by simp [laid?, hindex, hput]) index rfl
          · exact hidle hold
        · exact hidle hmem

/-- A connection that an event finds at a place was there before, or was taken from where it lay idle, or was just
opened, or was just laid down. -/
theorem origin (h : lending.Balanced) (hmem : connection ∈ (step event lending).connectionsAt place) :
    Origin event lending place connection := by
  have hstayed (hnone : laid? event lending = none) (hold : connection ∈ lending.connectionsAt place) :
      Origin event lending place connection := .stayed place connection hold (by simp [hnone])
  cases event with
  | put index now session lastSeqId failed => exact origin_put h hmem
  | take now asked =>
    have htakes := Pool.takes asked lending.pool now
    simp only [step] at hmem
    generalize (lending.pool.take now asked).1 = grant at *
    generalize (lending.pool.take now asked).2 = pool at *
    have hless {slots : Slots} (hsub : ∀ other ∈ slots.idle, other ∈ lending.pool.idle asked) {address : SocketAddress}
        (hidle : connection ∈ (lending.pool.setSlots asked slots).idle address) :
        connection ∈ lending.pool.idle address := by
      rw [Pool.idle_setSlots] at hidle
      split at hidle
      · next heq => exact heq ▸ hsub connection hidle
      · exact hidle
    cases htakes with
    | closed hshut => cases place <;> exact hstayed rfl hmem
    | reuse old found rest hopen hidle hold hnew =>
      cases place with
      | none =>
        rcases List.mem_cons.mp hmem with rfl | hheld
        · exact .taken asked connection (hidle ▸ List.mem_append_right _ List.mem_cons_self) rfl
        · exact hstayed rfl hheld
      | some address =>
        refine hstayed rfl (hless (fun other hother => ?_) hmem)
        exact hidle ▸ List.mem_append_right _ (List.mem_cons_of_mem _ hother)
    | dial hopen hold hroom =>
      cases place with
      | none => exact hstayed rfl hmem
      | some address => exact hstayed rfl (hless (List.forall_mem_nil _) hmem)
    | full hopen hold hfull =>
      cases place with
      | none => exact hstayed rfl hmem
      | some address => exact hstayed rfl (hless (List.forall_mem_nil _) hmem)
  | opened index now dialed =>
    cases hindex : lending.dialing[index]? with
    | none => exact hstayed rfl (by simpa only [step, hindex] using hmem)
    | some dialedTo =>
      rcases lending.pool.opened_cases dialedTo now dialed with ⟨made, hopened, hserial, -⟩ | ⟨err, hopened⟩
      · simp only [step, hindex, hopened] at hmem
        cases place with
        | none =>
          rcases List.mem_cons.mp hmem with rfl | hold
          · exact .opened connection hserial (Pool.releasedAt_opened hopened) rfl
          · exact hstayed rfl hold
        | some address => exact hstayed rfl hmem
      · simp only [step, hindex, hopened] at hmem
        cases place with
        | none => exact hstayed rfl hmem
        | some address => exact hstayed rfl (by simpa only [connectionsAt, Pool.idle_forget] using hmem)
  | clearIdle cleared =>
    cases place with
    | none => exact hstayed rfl hmem
    | some address =>
      simp only [step, connectionsAt, Pool.idle_clearIdle] at hmem
      exact hstayed rfl ((cleared_sublist _ _).subset hmem)
  | forget index =>
    cases hindex : lending.held[index]? with
    | none => exact hstayed rfl (by simpa only [step, hindex] using hmem)
    | some back =>
      simp only [step, hindex] at hmem
      cases place with
      | none => exact hstayed rfl ((List.eraseIdx_sublist _ _).subset hmem)
      | some address => exact hstayed rfl (by simpa only [connectionsAt, Pool.idle_forget] using hmem)
  | close =>
    cases place with
    | none => exact hstayed rfl hmem
    | some address =>
      simp only [step, connectionsAt, Pool.idle_close] at hmem
      cases hmem

/-! ## Times of release -/

structure Dated (log : List (Nat × Nat)) (lending : Lending) : Prop where
  at_place : ∀ place, ∀ connection ∈ lending.connectionsAt place,
    connection.releasedAt = log.lookup connection.serial
  below : ∀ entry ∈ log, entry.1 < lending.pool.made

theorem dated_start (settings : PoolSettings) : Dated [] ⟨{ settings }, [], []⟩ where
  at_place := by rintro (_ | address) _ ⟨⟩
  below := List.forall_mem_nil _

theorem lookup_of_ne {log : List (Nat × Nat)} {laid : Option (Nat × Nat)} {serial : Nat}
    (h : ∀ entry ∈ laid, entry.1 ≠ serial) : (laid.toList ++ log).lookup serial = log.lookup serial := by
  cases laid with
  | none => rfl
  | some entry =>
    have hne : (serial == entry.1) = false := beq_eq_false_iff_ne.mpr (Ne.symm (h entry rfl))
    rw [Option.toList_some, List.singleton_append, List.lookup_cons, hne]

theorem made_le_step (event : Event) (lending : Lending) : lending.pool.made ≤ (step event lending).pool.made := by
  cases event with
  | take now address =>
    have htakes := Pool.takes address lending.pool now
    simp only [step]
    generalize (lending.pool.take now address).1 = grant at *
    generalize (lending.pool.take now address).2 = pool at *
    cases htakes <;> exact Nat.le_refl _
  | opened index now dialed =>
    cases hindex : lending.dialing[index]? with
    | none => simp [step, hindex]
    | some address =>
      rcases lending.pool.opened_cases address now dialed with ⟨made, hopened, -⟩ | ⟨err, hopened⟩
      · simp [step, hindex, hopened]
      · simp [step, hindex, hopened]
  | put index now session lastSeqId failed =>
    cases hindex : lending.held[index]? with
    | none => simp [step, hindex]
    | some connection =>
      simp only [step, hindex, Pool.put]
      split
      · exact Nat.le_refl _
      · split <;> exact Nat.le_refl _
  | clearIdle address => simp [step]
  | forget index => cases hindex : lending.held[index]? <;> simp [step, hindex]
  | close => exact Nat.le_refl _

/-- Only a held connection is laid down, and at the time that the clock shows. -/
theorem held_of_laid {entry : Nat × Nat} (h : laid? event lending = some entry) :
    ∃ connection ∈ lending.held, entry.1 = connection.serial ∧ event.clock? = some entry.2 := by
  cases event with
  | put index now session lastSeqId failed =>
    cases hindex : lending.held[index]? with
    | none => simp [laid?, hindex] at h
    | some connection =>
      simp only [laid?, hindex] at h
      split at h
      · cases h
        exact ⟨connection, List.mem_of_getElem? hindex, rfl, rfl⟩
      · cases h
  | _ => cases h

variable {log : List (Nat × Nat)}

private theorem Dated.step (hdated : Dated log lending) (h : lending.Balanced) :
    Dated ((laid? event lending).toList ++ log) (Lending.step event lending) where
  at_place := by
    intro place connection hmem
    cases origin h hmem with
    | stayed _ _ hold hother => rw [lookup_of_ne hother, hdated.at_place place connection hold]
    | taken address _ hold hnone => rw [hnone, hdated.at_place (some address) connection hold]; rfl
    | opened _ hserial hnever hnone =>
      have hnew : log.lookup connection.serial = none := by
        refine List.lookup_eq_none_iff.mpr fun entry hentry => ?_
        have := hdated.below entry hentry
        simp
        omega
      rw [hnone, hnever]
      exact hnew.symm
    | laid now session lastSeqId held hheld hlaid index hevent =>
      rw [hlaid]
      simp [Connection.release, used]
  below := by
    intro entry hentry
    refine Nat.lt_of_lt_of_le ?_ (made_le_step event lending)
    rcases List.mem_append.mp hentry with hlaid | hold
    · obtain ⟨connection, hheld, hserial, -⟩ := held_of_laid (Option.mem_toList.mp hlaid)
      rw [hserial]
      exact h.apart.below none connection.serial (List.mem_map_of_mem hheld)
    · exact hdated.below entry hold

private theorem Dated.run (hdated : Dated log lending) (h : lending.Balanced) (events : List Event) :
    Dated (releases events lending ++ log) (Lending.run events lending) := by
  induction events generalizing lending log with
  | nil => exact hdated
  | cons event events ih =>
    rw [releases, List.append_assoc]
    exact ih (hdated.step h) (step_keeps h event).balanced

/-- A release is timed by the clock that its event reads. -/
theorem clock_of_release {events : List Event} {entry : Nat × Nat} (hentry : entry ∈ releases events lending) :
    ∃ event ∈ events, event.clock? = some entry.2 := by
  induction events generalizing lending with
  | nil => cases hentry
  | cons event events ih =>
    rcases List.mem_append.mp hentry with hlater | hlaid
    · obtain ⟨other, hmem, hclock⟩ := ih hlater
      exact ⟨other, List.mem_cons_of_mem _ hmem, hclock⟩
    · obtain ⟨-, -, -, hclock⟩ := held_of_laid (Option.mem_toList.mp hlaid)
      exact ⟨event, List.mem_cons_self, hclock⟩

/-- In a run from the start, the connection was given back at a time, and has lain idle at the address ever since. -/
def LainSince (start : Lending) (events : List Event) (address : SocketAddress) (connection : Connection)
    (since : Nat) : Prop :=
  ∃ before index session lastSeqId failed after,
    events = before ++ .put index since session lastSeqId failed :: after ∧
      ∀ more, more <+: after → connection ∈
        (run (before ++ .put index since session lastSeqId failed :: more) start).pool.idle address

/-- What lies idle was given back when it says, and nobody has taken it since. -/
theorem lainSince_of_idle {start : Lending} (h : start.Balanced) (hnone : ∀ address, start.pool.idle address = [])
    (events : List Event) (hmem : connection ∈ (run events start).pool.idle address) :
    ∃ since ∈ connection.releasedAt, LainSince start events address connection since := by
  induction events using List.reverseRecOn generalizing connection address with
  | nil =>
    rw [run, List.foldl_nil, hnone] at hmem
    cases hmem
  | append_singleton events event ih =>
    have hrun : run (events ++ [event]) start = step event (run events start) := by
      rw [run, List.foldl_append]
      rfl
    rw [hrun] at hmem
    have horigin := @origin (run events start) event connection (some address) (run_balanced h events) hmem
    cases horigin with
    | stayed _ _ hold _ =>
      obtain ⟨since, hsince, before, index, session, lastSeqId, failed, after, rfl, hlain⟩ := ih hold
      refine ⟨since, hsince, before, index, session, lastSeqId, failed, after ++ [event], by simp, fun more hmore => ?_⟩
      rcases List.prefix_concat_iff.mp hmore with rfl | hless
      · rwa [← List.cons_append, ← List.append_assoc, hrun]
      · exact hlain more hless
    | laid now session lastSeqId held hheld hlaid index hevent =>
      subst hevent
      refine ⟨now, rfl, events, index, session, lastSeqId, false, [], rfl, fun more hmore => ?_⟩
      obtain rfl := List.prefix_nil.mp hmore
      rwa [hrun]

/-! ## What is closed -/

/-- What the pool asks of a connection that is given back: that the exchange went well, that the pool is open and has
room, that the connection is not too old, and that it was not released too long ago before. -/
structure Stays (lending : Lending) (log : List (Nat × Nat)) (now : Nat) (failed : Bool) (held : Connection) :
    Prop where
  sound : failed = false
  opened : lending.pool.closed = false
  room : (lending.pool.idle held.address).length < lending.pool.settings.maxIdle
  young : ∀ age ∈ lending.pool.settings.maxAge, now - held.openedAt < age
  recent : ∀ timeout ∈ lending.pool.settings.idleTimeout, ∀ since ∈ log.lookup held.serial, now < since + timeout

private theorem Dated.accepts_iff {held : Connection} {now : Nat} (hdated : Dated log lending)
    (hheld : held ∈ lending.held)
    (hclock : ∀ entry ∈ log, entry.2 ≤ now) (session : Session) (lastSeqId : Int32) (failed : Bool) :
    lending.pool.Accepts now (used session lastSeqId failed held) ↔ lending.Stays log now failed held := by
  have hreleased : (used session lastSeqId failed held).releasedAt = log.lookup held.serial :=
    hdated.at_place none held hheld
  have hsince : ∀ since ∈ log.lookup held.serial, since ≤ now := fun since hsince => by
    obtain ⟨later, earlier, rfl, -⟩ := List.lookup_eq_some_iff.mp hsince
    exact hclock (held.serial, since) (List.mem_append_right _ List.mem_cons_self)
  constructor
  · rintro ⟨hsound, hopened, hlasting, hroom⟩
    obtain ⟨hyoung, hrecent⟩ := (Connection.isExpired_eq_false_iff _ _ _).mp hlasting
    rw [hreleased] at hrecent
    refine ⟨hsound, hopened, hroom, hyoung, fun timeout htimeout since hmem => ?_⟩
    have := hrecent timeout htimeout since hmem
    have := hsince since hmem
    omega
  · rintro ⟨hsound, hopened, hroom, hyoung, hrecent⟩
    refine ⟨hsound, hopened, (Connection.isExpired_eq_false_iff _ _ _).mpr ⟨hyoung, ?_⟩, hroom⟩
    rw [hreleased]
    intro timeout htimeout since hmem
    have := hrecent timeout htimeout since hmem
    have := hsince since hmem
    omega

/-- What is neither handed out nor still there after a caller asked for a connection has expired. -/
theorem expired_of_gone {now : Nat} (hidle : connection ∈ lending.pool.idle address)
    (hgone : connection ∉ (lending.pool.take now address).2.idle address)
    (hother : (lending.pool.take now address).1 ≠ .reuse connection) :
    connection.isExpired lending.pool.settings now = true := by
  have htakes := Pool.takes address lending.pool now
  generalize (lending.pool.take now address).1 = grant at *
  generalize (lending.pool.take now address).2 = pool at *
  cases htakes with
  | closed hshut => exact absurd hidle hgone
  | reuse old found rest hopen hsplit hold hnew =>
    rw [Pool.idle_setSlots, if_pos rfl] at hgone
    rw [hsplit] at hidle
    rcases List.mem_append.mp hidle with hmem | hmem
    · exact hold connection hmem
    · rcases List.mem_cons.mp hmem with rfl | hrest
      · exact absurd rfl hother
      · exact absurd hrest hgone
  | dial hopen hold hroom => exact hold connection hidle
  | full hopen hold hfull => exact hold connection hidle

/-- Whatever callers do, by clocks that show no more than this one: a connection that is given back lies idle exactly if
the pool still has a use for it and it was not released too long ago before, whether it was in use since or not. An idle
connection is closed in passing only if it has become too old, or has lain idle for as long as is allowed. -/
theorem run_idle_timeout (settings : PoolSettings) (events : List Event) (now : Nat)
    (hclock : ∀ event ∈ events, ∀ clock ∈ event.clock?, clock ≤ now) :
    let start : Lending := ⟨{ settings }, [], []⟩
    let lending := run events start
    (∀ (index : Nat) (held : Connection) (session : Session) (lastSeqId : Int32) (failed : Bool),
      lending.held[index]? = some held →
      let given := (lending.pool.put now (used session lastSeqId failed held)).1
      (lending.Stays (releases events start) now failed held → given = .kept) ∧
      (¬lending.Stays (releases events start) now failed held → given = .closed)) ∧
    ∀ address, ∀ connection ∈ lending.pool.idle address,
      connection ∉ (lending.pool.take now address).2.idle address →
      (lending.pool.take now address).1 ≠ .reuse connection →
      (∃ age ∈ settings.maxAge, age ≤ now - connection.openedAt) ∨
        ∃ timeout ∈ settings.idleTimeout, ∃ since, LainSince start events address connection since ∧
          since + timeout ≤ now := by
  intro start lending
  have hstart := balanced_start settings
  have h : lending.Balanced := run_balanced hstart events
  have hdated := (dated_start settings).run hstart events
  rw [List.append_nil] at hdated
  have hlog : ∀ entry ∈ releases events start, entry.2 ≤ now := fun entry hentry => by
    obtain ⟨event, hevent, hread⟩ := clock_of_release hentry
    exact hclock event hevent entry.2 hread
  refine ⟨fun index held session lastSeqId failed hindex => ?_, fun address connection hidle hgone hother => ?_⟩
  · obtain ⟨earlier, later, hheld, -⟩ := split_of_getElem? hindex
    have hiff := hdated.accepts_iff (List.mem_of_getElem? hindex) hlog session lastSeqId failed
    have hknown : lending.pool.slots held.address ≠ none := slots_ne_none h hheld
    rcases @Pool.put_iff_accepts lending.pool (used session lastSeqId failed held) now hknown with
      ⟨hrefused, hput⟩ | ⟨haccepts, hput⟩
    · exact ⟨fun hstays => absurd (hiff.mpr hstays) hrefused, fun _ => by rw [hput]⟩
    · exact ⟨fun _ => by rw [hput], fun hnot => absurd (hiff.mp haccepts) hnot⟩
  · have hexpired := expired_of_gone hidle hgone hother
    obtain ⟨since, hsince, hlain⟩ := lainSince_of_idle hstart (fun _ => rfl) events hidle
    have hlog : since ≤ now := by
      obtain ⟨before, index, session, lastSeqId, failed, after, rfl, -⟩ := hlain
      exact hclock (.put index since session lastSeqId failed) (by simp) since rfl
    have hsettings : lending.pool.settings = settings := settings_run hstart events
    rw [hsettings] at hexpired
    by_contra hnot
    rw [not_or] at hnot
    rw [(Connection.isExpired_eq_false_iff _ _ _).mpr ⟨?_, ?_⟩] at hexpired
    · cases hexpired
    · intro age hage
      exact Nat.lt_of_not_le fun hle => hnot.1 ⟨age, hage, hle⟩
    · intro timeout htimeout since' hsince'
      obtain rfl : since = since' := Option.mem_unique hsince hsince'
      refine Nat.lt_of_not_le fun hle => hnot.2 ⟨timeout, htimeout, since, hlain, by omega⟩

/-- Two connections, where 50 are allowed. The first was released at 0 and is in use since 10, the second lies idle
since 20. At 70 the first is closed when it is given back, and the second when a caller asks for a connection. -/
theorem run_idle_timeout_two : ∃ (events : List Event) (first second : Connection) (session : Session),
    (∀ event ∈ events, ∀ clock ∈ event.clock?, clock ≤ 70) ∧
    let start : Lending := ⟨{ settings := { idleTimeout := some 50 } }, [], []⟩
    let lending := run events start
    lending.held[0]? = some first ∧ (releases events start).lookup first.serial = some 0 ∧
    (lending.pool.put 70 (used session 2 false first)).1 = .closed ∧
    lending.pool.idle .loopback = [second] ∧ (lending.pool.take 70 .loopback).2.idle .loopback = [] ∧
    ∃ since, LainSince start events .loopback second since ∧ since + 50 ≤ 70 := by
  let start : Lending := ⟨{ settings := { idleTimeout := some 50 } }, [], []⟩
  obtain ⟨session, hsession⟩ : ∃ session : Session, session = ⟨{}, .binary {}, .raw .connected, [], [], none⟩ :=
    ⟨_, rfl⟩
  obtain ⟨events, hevents⟩ : ∃ events : List Event, events = [.take 0 .loopback, .opened 0 0 (.ok .connected),
      .take 0 .loopback, .opened 0 0 (.ok .connected), .put 1 0 session 1 false, .take 10 .loopback,
      .put 1 20 session 1 false] := ⟨_, rfl⟩
  have hclock : ∀ event ∈ events, ∀ clock ∈ event.clock?, clock ≤ 70 := by
    rw [hevents, hsession]
    decide
  have hheld : (run events start).held.map (·.serial) = [0] := by
    rw [hevents, hsession]
    decide +kernel
  have hidle : ((run events start).pool.idle .loopback).map (·.serial) = [1] := by
    rw [hevents, hsession]
    decide +kernel
  have hgone : (((run events start).pool.take 70 .loopback).2.idle .loopback).length = 0 := by
    rw [hevents, hsession]
    decide +kernel
  have hother : (match ((run events start).pool.take 70 .loopback).1 with
    | .reuse _ => false
    | _ => true) = true := by
    rw [hevents, hsession]
    decide +kernel
  have hreleased : (releases events start).lookup 0 = some 0 := by
    rw [hevents, hsession]
    decide +kernel
  obtain ⟨first, hfirst, hserial⟩ := List.map_eq_singleton_iff.mp hheld
  obtain ⟨second, hsecond, -⟩ := List.map_eq_singleton_iff.mp hidle
  rw [List.length_eq_zero_iff] at hgone
  replace hreleased : (releases events start).lookup first.serial = some 0 := by rw [hserial, hreleased]
  have hallowed : (run events start).pool.settings.idleTimeout = some 50 :=
    congrArg PoolSettings.idleTimeout (settings_run (balanced_start _) events)
  obtain ⟨hput, htake⟩ := run_idle_timeout { idleTimeout := some 50 } events 70 hclock
  have hplace : (run events start).held[0]? = some first := by rw [hfirst, List.getElem?_cons_zero]
  have hclosed := (hput 0 first session 2 false hplace).2 fun hstays =>
    absurd (hstays.recent 50 hallowed 0 hreleased) (by decide)
  have hpassed := htake .loopback second (hsecond ▸ List.mem_singleton_self second)
    (by rw [hgone]; exact List.not_mem_nil) (fun hreuse => by rw [hreuse] at hother; cases hother)
  rcases hpassed with ⟨age, hage, -⟩ | ⟨timeout, htimeout, since, hlain, hlong⟩
  · cases hage
  · cases htimeout
    exact ⟨events, first, second, session, hclock, hplace, hreleased, hclosed, hsecond, hgone, since, hlain, hlong⟩

/-- By a clock that never goes back, a connection was released at 0 and taken again at 10, and nothing lies idle since. At 100 it is given back after a
good exchange to an open pool with room, and it is closed, since 50 are allowed. -/
theorem use_counts_as_idle : ¬∀ (settings : PoolSettings) (events : List Event) (now index : Nat) (held : Connection)
    (session : Session) (lastSeqId : Int32), (events.filterMap Event.clock? ++ [now]).Pairwise (· ≤ ·) →
    let lending := run events ⟨{ settings }, [], []⟩
    lending.held[index]? = some held → lending.pool.closed = false →
    (∀ age ∈ settings.maxAge, now - held.openedAt < age) →
    (lending.pool.idle held.address).length < settings.maxIdle →
    (lending.pool.put now (used session lastSeqId false held)).1 = .kept := by
  intro hall
  let session : Session := ⟨{}, .binary {}, .raw .connected, [], [], none⟩
  let events : List Event := [.take 0 .loopback, .opened 0 0 (.ok .connected), .put 0 0 session 1 false,
    .take 10 .loopback]
  have hkept := hall { idleTimeout := some 50 } events 100 0 _ session 2 (by decide) rfl rfl nofun (by decide)
  revert hkept
  decide

end Lending
end RpcWire
