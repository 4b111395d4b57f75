import RpcWire.Proofs.Matching
import RpcWire.Proofs.Taking
import RpcWire.Proofs.Tracking.Sessions

/-! What a connection is found to be when it is used again. The look at a connection that lay idle sees what was read
ahead and what is still on the socket. It does not see what the layer between them holds: a frame that is partly read,
or octets of an envelope. -/
namespace RpcWire

namespace Session

structure Taken (sent : Bytes) (session : Session) : Prop where
  suits : session.endpoint.codec.Suits session.config
  transport : session.transport.Taken sent

variable {α : Type} {sent : Bytes} {session after : Session}

private theorem Taken.of_ok {act : SessionM α} {value : α} (h : session.Taken sent)
    (hact : Alike (Channel.accounted sent).toPairing session.config act) (hrun : act session = .ok value after) :
    after.Taken sent := by
  have hbeside : Beside (Channel.accounted sent).toPairing session.config session session :=
    ⟨rfl, rfl, rfl, h.suits, 0, rfl, h.transport⟩
  have hmatches := hact hbeside
  rw [hrun] at hmatches
  obtain ⟨-, hafter⟩ := hmatches.of_ok
  obtain ⟨-, -, htaken⟩ := hafter.endpoint.near
  exact ⟨hafter.config_left ▸ hafter.endpoint.known, htaken⟩

private theorem alike_readHead {pairing : Pairing} {config : SessionConfig} : Alike pairing config readHead :=
  alike_negotiateRead.seq (alike_resetCodec.seq (.onWire fun _ => WireM.follows_messageBegin.plain))

end Session

/-- What a call writes and reads is made of what a codec does: on channels that deliver alike it goes alike, and no
fault is made up. -/
structure Call.Regular {α : Type} (call : Call α) : Prop where
  arguments : ∀ (twoWay : TwoWay) (config : SessionConfig) (n : Nat),
    Follows twoWay.toPairing (Codec.Suits config) n n call.arguments call.arguments
  result : ∀ (twoWay : TwoWay) (config : SessionConfig) (n : Nat),
    Follows twoWay.toPairing (Codec.Suits config) n n call.result call.result
  faultless : Faultless call.result

/-- The other side sends so much, whatever else it does. -/
def Stream.Sends (peer : Stream → Stream) (more : Bytes) : Prop :=
  ∀ stream, (peer stream).unread = stream.unread ++ more

namespace Connection
variable {α : Type} {call : Call α} {connection asked after : Connection} {peer : Stream → Stream} {sent more : Bytes}

/-- An exchange that ends so keeps its connection: with a reply, none where none is due, or with a fault. -/
def Keeps (outcome : EStateM.Result ClientError Connection (Option α)) (after : Connection) : Prop :=
  (∃ reply, outcome = .ok reply after) ∨ ∃ fault, outcome = .error (.fault fault) after

theorem Keeps.of_ok {reply : Option α} {state : Connection} (h : Keeps (.ok reply state) after) : after = state := by
  rcases h with ⟨_, ⟨⟩⟩ | ⟨_, ⟨⟩⟩
  rfl

theorem Keeps.of_error {err : ClientError} {state : Connection}
    (h : Keeps (.error err state : EStateM.Result ClientError Connection (Option α)) after) :
    err.keepsConnection = true ∧ after = state := by
  rcases h with ⟨_, ⟨⟩⟩ | ⟨_, ⟨⟩⟩
  exact ⟨rfl, rfl⟩

/-- A connection that was kept through a history of exchanges, and what the other side has sent it. -/
inductive Kept : Bytes → Connection → Prop where
  | opened {settings : PoolSettings} {serial openedAt : Nat} {address : SocketAddress} {stream : Stream}
    {connection : Connection} (hopen : ofStream? settings serial address openedAt stream = .ok connection) :
    Kept stream.unread connection
  | exchanged {α : Type} {call : Call α} {peer : Stream → Stream} {sent more : Bytes}
    {connection asked after : Connection} (before : Kept sent connection) (regular : call.Regular)
    (hsent : sendRequest call connection = .ok () asked) (sends : Stream.Sends peer more)
    (keeps : Keeps (exchange peer call connection) after) : Kept (sent ++ more) after
  | released {sent : Bytes} {connection : Connection} (before : Kept sent connection) (now : Nat) :
    Kept sent (connection.release now)
  | idle {peer : Stream → Stream} {sent more : Bytes} {connection : Connection} (before : Kept sent connection)
    (sends : Stream.Sends peer more) : Kept (sent ++ more) (connection.mapStream peer)

private theorem taken_opened {settings : PoolSettings} {serial openedAt : Nat} {address : SocketAddress}
    {stream : Stream}
    (hopen : ofStream? settings serial address openedAt stream = .ok connection) :
    connection.session.Taken stream.unread := by
  unfold ofStream? at hopen
  cases hsession : Session.ofStream? settings.session stream with
  | error err =>
    rw [hsession] at hopen
    cases hopen
  | ok session =>
    rw [hsession] at hopen
    cases hopen
    obtain ⟨codec, hcodec, rfl⟩ := Session.eq_of_open hsession
    exact ⟨SessionConfig.suits_codec? hcodec, (Transport.taken_ofStream _ stream _).mapHead
      fun head => { head with identity := settings.identity, outgoingLasting := settings.lastingHeaders }⟩

private theorem taken_mapStream (h : connection.session.Taken sent) (sends : Stream.Sends peer more) :
    (connection.mapStream peer).session.Taken (sent ++ more) :=
  ⟨h.suits, h.transport.more (sends _)⟩

private theorem taken_sent (h : connection.session.Taken sent) (regular : call.Regular)
    (hsent : sendRequest call connection = .ok () asked) : asked.session.Taken sent := by
  rw [sendRequest_eq] at hsent
  split at hsent
  · cases hsent
  · rw [onSession] at hsent
    split at hsent
    · next session hsend =>
      cases hsent
      have hprepared : (connection.prepared call).session.Taken sent :=
        ⟨h.suits, h.transport.mapHead fun head => { head with outgoing := head.outgoing.insertMany call.headers }⟩
      exact hprepared.of_ok ((Session.alike_writeMessageBegin _).seq
        ((Session.Alike.onWire (regular.arguments _ _)).seq Session.alike_flush)) hsend
    · cases hsent

/-- Only an answer that was read whole keeps a connection, so all octets are still accounted for. -/
theorem taken_answered {seqId : Int32} {outcome : EStateM.Result ClientError Connection (Option α)}
    (h : connection.session.Taken sent) (regular : call.Regular) (hanswer : Answer call seqId connection outcome)
    (keeps : Keeps outcome after) : after.session.Taken sent := by
  cases hanswer with
  | reply head result =>
    rw [keeps.of_ok]
    exact (h.of_ok Session.alike_readHead head).of_ok (.onWire (regular.result _ _)) result
  | fault head kind body =>
    rw [keeps.of_error.2]
    exact (h.of_ok Session.alike_readHead head).of_ok (.onWire fun _ => Fault.follows_read _) body
  | other head kind differs =>
    have hkeeps := keeps.of_error.1
    rw [keepsConnection_mismatch] at hkeeps
    cases hkeeps
  | malformed plain =>
    have hkeeps := keeps.of_error.1
    rw [keepsConnection_ofWire plain] at hkeeps
    cases hkeeps

theorem exchange_oneway (honeway : call.oneway = true) (hsent : sendRequest call connection = .ok () asked) :
    exchange peer call connection = .ok none (asked.mapStream peer) := by
  rw [exchange, tryExchange, bind_of_ok hsent, bind_of_ok (modify_ok asked (mapStream peer)), honeway]
  rfl

/-- One exchange. -/
theorem taken_exchanged (h : connection.session.Taken sent) (regular : call.Regular)
    (hsent : sendRequest call connection = .ok () asked) (sends : Stream.Sends peer more)
    (keeps : Keeps (exchange peer call connection) after) : after.session.Taken (sent ++ more) := by
  have hasked := taken_mapStream (taken_sent h regular hsent) sends
  cases htwoWay : call.oneway with
  | true =>
    rw [exchange_oneway htwoWay hsent] at keeps
    rw [keeps.of_ok]
    exact hasked
  | false => exact taken_answered hasked regular (answer_exchange htwoWay regular.faultless hsent peer) keeps

/-- A whole history. -/
theorem taken_kept (h : Kept sent connection) : connection.session.Taken sent := by
  induction h with
  | opened hopen => exact taken_opened hopen
  | exchanged before regular hsent sends keeps ih => exact taken_exchanged ih regular hsent sends keeps
  | released before now ih => exact ih
  | idle before sends ih => exact taken_mapStream ih sends

/-- A connection that lay idle is not written to where octets were read ahead or are on the socket. Where it is written
to, no frame is partly read exactly if what the other side has sent up to then is whole frames; and of the last envelope
there is nothing left, or what the reads of the channel so far have not got. -/
theorem sendRequest_reused (hreused : connection.reused = true) (call : Call α) :
    (connection.isOutOfStep = true ∧ ∀ peer, tryExchange peer call connection = .error .peerClosed connection) ∨
    (connection.isOutOfStep = false ∧
      sendRequest call connection =
        onSession ofWriteError (Session.send (connection.nextHeader call) call.arguments) (connection.prepared call) ∧
      connection.buffered = 0 ∧ connection.session.stream.unread = [] ∧
      ∀ sent, Kept sent connection →
        (∀ layer, connection.session.transport = .framed layer → (layer.remaining = 0 ↔ Framed.Whole sent)) ∧
        ∀ layer, connection.session.transport = .header layer →
          layer.payload = [] ∨ ∃ reads > 0, Enveloped.Left sent reads layer.payload) := by
  have hrequest := sendRequest_eq call connection
  rw [hreused, Bool.true_and] at hrequest
  cases hstep : connection.isOutOfStep with
  | true =>
    rw [hstep, if_pos rfl] at hrequest
    exact .inl ⟨rfl, fun peer => bind_of_error hrequest⟩
  | false =>
    rw [hstep, if_neg Bool.false_ne_true] at hrequest
    obtain ⟨hbuffered, hsilent⟩ : connection.buffered = 0 ∧ connection.session.stream.isSilent = true := by
      simpa [isOutOfStep] using hstep
    have hunread : connection.session.stream.unread = [] := by
      simp only [Stream.isSilent, Bool.and_eq_true, List.isEmpty_iff] at hsilent
      exact hsilent.1
    refine .inr ⟨rfl, hrequest, hbuffered, hunread, fun sent hkept => ⟨fun layer hlayer => ?_, fun layer hlayer => ?_⟩⟩
    -- What the look did not see is told by the history.
    · have htaken := (taken_kept hkept).transport
      rw [Session.stream, hlayer] at hunread
      rw [hlayer] at htaken
      exact Framed.Taken.remaining_iff htaken hunread
    · have htaken := (taken_kept hkept).transport
      rw [Session.stream, hlayer] at hunread
      rw [hlayer] at htaken
      exact Enveloped.Taken.left htaken hunread

private theorem regular_search (request : Search.Request) : (search request).Regular where
  arguments _ _ _ := Search.Request.follows_write request
  result _ _ _ := Search.Response.follows_read 64
  faultless := Search.Response.faultless_read 64

/-- Whether a connection is out of step once it has lain idle, whether a request can be sent, and how much remains of
the frame being read. -/
def onReuse (connection : Connection) : Bool × Option Unit × Option Nat :=
  ((connection.release 0).isOutOfStep, (sendRequest (search {})).run' (connection.release 0),
    match connection.session.transport with
      | .framed layer => some layer.remaining
      | _ => none)

private theorem exists_reused {reply : Option Search.Response} {remaining : Nat}
    (h : EStateM.run' (do
        let reply ← exchange peer (search {})
        return (reply, onReuse (← get))) connection = some (reply, false, some (), some remaining)) :
    ∃ (after again : Connection) (layer : Framed), exchange peer (search {}) connection = .ok reply after ∧
      (after.release 0).isOutOfStep = false ∧ sendRequest (search {}) (after.release 0) = .ok () again ∧
      (after.release 0).session.transport = .framed layer ∧ layer.remaining = remaining := by
  obtain ⟨after, hexchange, hlook⟩ := exists_ok_of_look h
  simp only [onReuse, Prod.mk.injEq] at hlook
  obtain ⟨hstep, hagain, hremaining⟩ := hlook
  obtain ⟨again, hagain⟩ := exists_ok_of_run' hagain
  split at hremaining
  · next layer htransport =>
    exact ⟨after, again, layer, hexchange, hstep, hagain, htransport, Option.some.inj hremaining⟩
  · cases hremaining

/-- After a whole frame, a connection is used again with no frame partly read. -/
theorem sendRequest_reused_whole : ∃ (connection asked after again : Connection) (layer : Framed),
    ofStream? {} 0 .loopback 0 .connected = .ok connection ∧ sendRequest (search {}) connection = .ok () asked ∧
    exchange (Stream.push · (searchReply 40)) (search {}) connection = .ok (some ⟨["r1"], 7⟩) after ∧
    (after.release 0).reused = true ∧ sendRequest (search {}) (after.release 0) = .ok () again ∧
    (after.release 0).session.transport = .framed layer ∧ layer.remaining = 0 := by
  obtain ⟨connection, asked, hopen, hsent, hrun⟩ : ∃ connection asked : Connection,
      ofStream? {} 0 .loopback 0 .connected = .ok connection ∧ sendRequest (search {}) connection = .ok () asked ∧
      EStateM.run' (do
        let reply ← exchange (Stream.push · (searchReply 40)) (search {})
        return (reply, onReuse (← get))) connection = some (some ⟨["r1"], 7⟩, false, some (), some 0) :=
    ⟨_, _, rfl, rfl, by decide +kernel⟩
  obtain ⟨after, again, layer, hexchange, hstep, hagain, htransport, -⟩ := exists_reused hrun
  have hkept : Kept (searchReply 40) (after.release 0) :=
    .released (.exchanged (.opened hopen) (regular_search {}) hsent (fun _ => rfl) (.inl ⟨_, hexchange⟩)) 0
  have hwhole : Framed.Whole (searchReply 40) := ⟨[(searchReply 40).drop 4], by decide, by decide⟩
  obtain ⟨hout, -⟩ | ⟨-, -, -, -, hlayers⟩ := @sendRequest_reused _ (after.release 0) rfl (search {})
  · rw [hstep] at hout
    cases hout
  · exact ⟨connection, asked, after, again, layer, hopen, hsent, hexchange, rfl, hagain, htransport,
      ((hlayers _ hkept).1 layer htransport).mpr hwhole⟩

/-- After a frame that announces 14 octets more than have come, a connection is found to be in step and written to, with
the frame partly read. -/
theorem sendRequest_reused_cut : ∃ (connection asked after again : Connection) (layer : Framed),
    ofStream? {} 0 .loopback 0 .connected = .ok connection ∧ sendRequest (search {}) connection = .ok () asked ∧
    exchange (Stream.push · (searchReply 54)) (search {}) connection = .ok (some ⟨["r1"], 7⟩) after ∧
    Kept (searchReply 54) (after.release 0) ∧ (after.release 0).reused = true ∧
    (after.release 0).isOutOfStep = false ∧ sendRequest (search {}) (after.release 0) = .ok () again ∧
    (after.release 0).session.transport = .framed layer ∧ layer.remaining = 14 := by
  obtain ⟨connection, asked, hopen, hsent, hrun⟩ : ∃ connection asked : Connection,
      ofStream? {} 0 .loopback 0 .connected = .ok connection ∧ sendRequest (search {}) connection = .ok () asked ∧
      EStateM.run' (do
        let reply ← exchange (Stream.push · (searchReply 54)) (search {})
        return (reply, onReuse (← get))) connection = some (some ⟨["r1"], 7⟩, false, some (), some 14) :=
    ⟨_, _, rfl, rfl, by decide +kernel⟩
  obtain ⟨after, again, layer, hexchange, hstep, hagain, htransport, hremaining⟩ := exists_reused hrun
  have hkept : Kept (searchReply 54) (after.release 0) :=
    .released (.exchanged (.opened hopen) (regular_search {}) hsent (fun _ => rfl) (.inl ⟨_, hexchange⟩)) 0
  exact ⟨connection, asked, after, again, layer, hopen, hsent, hexchange, hkept, rfl, hstep, hagain, htransport,
    hremaining⟩

end Connection
end RpcWire
