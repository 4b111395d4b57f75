import RpcWire.Proofs.Handover

/-! One exchange on a connection: where it can find that the other side has gone away, and what the stream has of
the request by then. -/
namespace RpcWire

private theorem ClientError.ofWire_ne_peerClosed (err : WireError) : ofWire err ≠ .peerClosed := by
  cases err
  case io cause =>
    simp only [ofWire]
    split <;> exact fun h => nomatch h
  all_goals exact fun h => nomatch h

namespace Connection
variable {α : Type} {call : Call α} {connection after : Connection}

def nextHeader (call : Call α) (connection : Connection) : MessageHeader :=
  ⟨call.method, call.kind, nextSeqId connection.lastSeqId⟩

def prepared (call : Call α) (connection : Connection) : Connection :=
  connection.advance.mapSession (Session.mapTransport (Transport.mapHead fun head =>
    { head with outgoing := head.outgoing.insertMany call.headers }))

/-- A request is sent as one message, unless a look at a connection that lay idle forbids it. -/
theorem sendRequest_eq (call : Call α) (connection : Connection) :
    sendRequest call connection =
      if connection.reused && connection.isOutOfStep then .error .peerClosed connection
      else onSession ofWriteError (Session.send (connection.nextHeader call) call.arguments)
        (connection.prepared call) := by
  rw [sendRequest, bind_of_ok (get_ok connection)]
  cases connection.reused && connection.isOutOfStep <;> rfl

private theorem onSession_ofWire_ne_peerClosed {β : Type} (act : SessionM β) :
    onSession .ofWire act connection ≠ .error .peerClosed after := by
  intro h
  rw [onSession] at h
  split at h
  · cases h
  · injection h with herr _
    exact ClientError.ofWire_ne_peerClosed _ herr

/-- No reading of a reply finds that the other side has gone away: the end of the stream is another failure. -/
theorem receiveReply_ne_peerClosed : receiveReply call connection ≠ .error .peerClosed after := by
  intro h
  rw [receiveReply, bind_of_ok (get_ok connection)] at h
  rcases error_of_bind_error h with h | ⟨header, middle, -, h⟩
  · exact onSession_ofWire_ne_peerClosed _ h
  · by_cases hkind : header.kind = .reply
    · by_cases hname : header.name = call.method
      · by_cases hseqId : header.seqId = connection.lastSeqId
        · simp only [hkind, hname, hseqId, ne_eq, not_true_eq_false, if_false] at h
          exact onSession_ofWire_ne_peerClosed _ h
        · simp only [hkind, hname, hseqId, ne_eq, not_true_eq_false, not_false_eq_true, if_true, if_false] at h
          cases h
      · simp only [hkind, hname, ne_eq, not_true_eq_false, not_false_eq_true, if_true, if_false] at h
        cases h
    · simp only [hkind, ne_eq, not_false_eq_true, if_true] at h
      cases h

/-- Where an exchange finds the other side gone: the connection lay idle and is out of step, and nothing is written;
or the stream fails that way while the request is written and flushed. -/
inductive FoundClosed (call : Call α) (connection after : Connection) : Prop where
  | idle (hreused : connection.reused = true) (hstep : connection.isOutOfStep = true) (hafter : after = connection)
  | writing (cause : IoError) (session : Session) (hlook : (connection.reused && connection.isOutOfStep) = false)
      (hsend : Session.send (connection.nextHeader call) call.arguments (connection.prepared call).session =
        .error (.io cause) session)
      (hclosed : (WireError.io cause).isPeerClosed = true) (hafter : after = { connection.prepared call with session })

theorem sendRequest_peerClosed_iff :
    sendRequest call connection = .error .peerClosed after ↔ FoundClosed call connection after := by
  rw [sendRequest_eq]
  cases hlook : connection.reused && connection.isOutOfStep with
  | true =>
    obtain ⟨hreused, hstep⟩ := Bool.and_eq_true_iff.mp hlook
    constructor
    · intro h
      cases h
      exact .idle hreused hstep rfl
    · rintro (⟨-, -, rfl⟩ | ⟨_, _, hnot, -, -, -⟩)
      · rfl
      · rw [hlook] at hnot
        cases hnot
  | false =>
    rw [if_neg Bool.false_ne_true, onSession]
    constructor
    · intro h
      cases hsend : Session.send (connection.nextHeader call) call.arguments (connection.prepared call).session with
      | ok _ session =>
        rw [hsend] at h
        cases h
      | error err session =>
        rw [hsend] at h
        injection h with herr hafter
        rw [ofWriteError] at herr
        split at herr
        · next hclosed =>
          cases err
          case io cause => exact .writing cause session hlook hsend hclosed hafter.symm
          all_goals cases hclosed
        · exact absurd herr (ClientError.ofWire_ne_peerClosed err)
    · rintro (⟨hreused, hstep, -⟩ | ⟨cause, session, -, hsend, hclosed, rfl⟩)
      · rw [hreused, hstep] at hlook
        cases hlook
      · rw [hsend]
        simp only [ofWriteError, hclosed, if_true]

/-- An exchange fails with the other side gone exactly where it finds it gone before the request is out. -/
theorem exchange_peerClosed_iff (peer : Stream → Stream) :
    exchange peer call connection = .error .peerClosed after ↔
      ∃ middle, FoundClosed call connection middle ∧ after = middle.markFailed := by
  have htry (middle : Connection) : tryExchange peer call connection = .error .peerClosed middle ↔
      FoundClosed call connection middle := by
    rw [← sendRequest_peerClosed_iff]
    refine ⟨fun h => ?_, fun h => bind_of_error h⟩
    rcases error_of_bind_error h with h | ⟨_, sent, -, h⟩
    · exact h
    · rw [bind_of_ok (modify_ok sent (mapStream peer))] at h
      split at h
      · cases h
      · rcases error_of_bind_error h with h | ⟨reply, read, -, h⟩
        · exact absurd h receiveReply_ne_peerClosed
        · cases h
  rw [exchange]
  constructor
  · intro h
    cases hrun : tryExchange peer call connection with
    | ok reply middle =>
      rw [hrun] at h
      cases h
    | error err middle =>
      rw [hrun] at h
      injection h with herr hafter
      subst herr
      exact ⟨middle, (htry middle).mp hrun, hafter.symm⟩
  · rintro ⟨middle, hfound, rfl⟩
    rw [(htry middle).mpr hfound]
    rfl

/-! ## What the stream has of a request -/

def writtenSince (connection start : Connection) : Bytes :=
  connection.session.stream.written.drop start.session.stream.written.length

/-- The octets of the whole request, where it can be written: those that a new connection in the same state, whose
stream takes all, hands over. -/
def request? (call : Call α) (connection : Connection) : Option Bytes :=
  match sendRequest call { connection.mapStream Stream.unhindered with reused := false } with
  | .ok _ after => some (after.writtenSince connection)
  | .error _ _ => none

def taken (call : Call α) (connection : Connection) : Bytes :=
  match sendRequest call connection with
  | .ok _ after => after.writtenSince connection
  | .error _ after => after.writtenSince connection

def HandsOver (call : Call α) (connection : Connection) : Prop :=
  connection.request? call = some (connection.taken call)

instance (call : Call α) (connection : Connection) : Decidable (HandsOver call connection) :=
  inferInstanceAs (Decidable (connection.request? call = some (connection.taken call)))

private theorem stream_prepared (call : Call α) (connection : Connection) :
    (connection.prepared call).session.stream = connection.session.stream := by
  obtain ⟨serial, address, ⟨config, codec, transport, readAhead, pending, captured⟩, _⟩ := connection
  cases transport <;> rfl

/-- The whole request is what a stream without a limit gets of it. -/
theorem request?_eq_some_iff {whole : Bytes} :
    connection.request? call = some whole ↔
      ∃ session, Session.send (connection.nextHeader call) call.arguments
          ((connection.prepared call).session.onto connection.session.stream.unhindered) = .ok () session ∧
        whole = session.stream.written.drop connection.session.stream.written.length := by
  have hprepared : ({ connection.mapStream Stream.unhindered with reused := false }.prepared call).session =
      (connection.prepared call).session.onto connection.session.stream.unhindered := by
    obtain ⟨serial, address, ⟨config, codec, transport, readAhead, pending, captured⟩, _⟩ := connection
    cases transport <;> rfl
  have hheader : { connection.mapStream Stream.unhindered with reused := false }.nextHeader call =
      connection.nextHeader call := rfl
  rw [request?, sendRequest_eq, Bool.false_and, if_neg Bool.false_ne_true, onSession, hprepared, hheader]
  cases Session.send (connection.nextHeader call) call.arguments
    ((connection.prepared call).session.onto connection.session.stream.unhindered) with
  | ok _ session =>
    constructor
    · intro h
      cases h
      exact ⟨session, rfl, rfl⟩
    · rintro ⟨_, hsession, rfl⟩
      cases hsession
      rfl
  | error err session =>
    constructor
    · intro h
      cases h
    · rintro ⟨_, hsession, -⟩
      cases hsession

/-- A request that was sent was handed over whole. -/
theorem handsOver_of_sent (hgathers : Gathers call.arguments) (h : sendRequest call connection = .ok () after) :
    HandsOver call connection := by
  have htaken : connection.taken call = after.writtenSince connection := by rw [taken, h]
  rw [HandsOver, htaken, request?_eq_some_iff]
  rw [sendRequest_eq] at h
  split at h
  · cases h
  · rw [onSession] at h
    cases hsend : Session.send (connection.nextHeader call) call.arguments (connection.prepared call).session with
    | error err session =>
      rw [hsend] at h
      cases h
    | ok _ session =>
      rw [hsend] at h
      cases h
      obtain ⟨octets, whole, -, hafter, hfull, hwhole⟩ := Session.send_of_ok hgathers hsend
      rw [stream_prepared] at hafter hfull hwhole
      exact ⟨whole, hfull, by rw [hwhole, writtenSince, hafter]⟩

/-- Where a request was not sent, the stream lacks the end of it. -/
theorem taken_of_not_sent {err : ClientError} (hgathers : Gathers call.arguments)
    (h : sendRequest call connection = .error err after) {whole : Bytes}
    (hwhole : connection.request? call = some whole) :
    ∃ rest, rest ≠ [] ∧ whole = connection.taken call ++ rest := by
  obtain ⟨session, hfull, rfl⟩ := request?_eq_some_iff.mp hwhole
  have htaken : connection.taken call = after.writtenSince connection := by rw [taken, h]
  rw [htaken, writtenSince]
  have hcut (more : Bytes) : (connection.session.stream.written ++ more).drop connection.session.stream.written.length =
      more := List.drop_left
  rw [sendRequest_eq] at h
  split at h
  · cases h
    obtain ⟨octets, _, hne, hafter, -, -⟩ := Session.send_of_ok hgathers hfull
    rw [Session.stream_onto, Stream.unhindered] at hafter
    exact ⟨octets, hne, by rw [hafter, hcut, List.drop_length, List.nil_append]⟩
  · rw [onSession] at h
    cases hsend : Session.send (connection.nextHeader call) call.arguments (connection.prepared call).session with
    | ok _ session =>
      rw [hsend] at h
      cases h
    | error err session =>
      rw [hsend] at h
      cases h
      obtain ⟨part, hpart, hrest⟩ := Session.send_of_error hgathers hsend
      rw [stream_prepared] at hpart hrest
      obtain ⟨rest, hne, hafter⟩ := hrest _ hfull
      exact ⟨rest, hne, by rw [hafter, hpart, hcut, hcut]⟩

theorem handsOver_iff_sent (hgathers : Gathers call.arguments) :
    HandsOver call connection ↔ ∃ after, sendRequest call connection = .ok () after := by
  constructor
  · intro h
    cases hsend : sendRequest call connection with
    | ok _ after => exact ⟨after, rfl⟩
    | error err after =>
      obtain ⟨rest, hne, hwhole⟩ := taken_of_not_sent hgathers hsend h
      exact absurd (List.append_right_eq_self.mp hwhole.symm) hne
  · rintro ⟨after, h⟩
    exact handsOver_of_sent hgathers h

end Connection
end RpcWire
