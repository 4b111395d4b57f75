import RpcWire.Proofs.Enveloping
import RpcWire.Proofs.Layout.CodecReading
import RpcWire.Proofs.Outgoing

/-! Messages that are refused because their frame or envelope would be too large, or because their headers do not fit.
Nothing of them comes to the stream, and the messages after them are sent as if they had not been written; only what the
user had said for their envelope is still said in the next one. -/
namespace RpcWire

namespace Transport

/-- What may come of handing a payload to a transport: it is refused and nothing has changed, or the stream took all or
a part of it and nothing is held back. -/
inductive Handed (transport : Transport) : EStateM.Result WireError Transport Unit → Prop where
  | refused (err : FramingError) : Handed transport (.error (.framing err) transport)
  | failed {after : Transport} (cause : IoError) (hrest : after.withheld = []) (hkind : after.kind = transport.kind) :
      Handed transport (.error (.io cause) after)
  | sent {after : Transport} (hrest : after.withheld = []) (hkind : after.kind = transport.kind) :
      Handed transport (.ok () after)

private theorem Handed.hand {transport : Transport} {onto : Stream → Transport} (octets : Bytes)
    (stream : Stream)
    (hrest : ∀ stream, (onto stream).withheld = []) (hkind : ∀ stream, (onto stream).kind = transport.kind) :
    transport.Handed (stream.hand octets onto) := by
  rcases stream.write_cases octets with hw | ⟨cause, after, count, -, -, hw⟩
  · rw [Stream.hand, hw]
    exact .sent (hrest _) (hkind _)
  · rw [Stream.hand, hw]
    exact .failed cause (hrest _) (hkind _)

private theorem handed_write_flush {payload : Bytes} (hne : payload ≠ []) {transport : Transport}
    (hrest : transport.withheld = []) : transport.Handed ((do write payload; flush) transport) := by
  cases transport with
  | raw stream =>
    have hhand : (do write payload; flush) (.raw stream) = stream.hand payload .raw := by
      simp only [Stream.hand, bind, EStateM.bind, write, dispatch, onPart]
      cases Stream.write payload stream <;> rfl
    rw [hhand]
    exact .hand payload stream (fun _ => rfl) fun _ => rfl
  | framed layer =>
    obtain ⟨stream, maxSize, remaining, pending⟩ := layer
    obtain rfl : pending = [] := hrest
    by_cases hlarge : maxSize.toNat < 0 + payload.length
    · have hwrite : write payload (.framed ⟨stream, maxSize, remaining, []⟩) =
          .error (.framing (.tooLarge (0 + payload.length) maxSize)) (.framed ⟨stream, maxSize, remaining, []⟩) := by
        simp only [write, dispatch, onPart, Framed.write, List.length_nil, if_pos hlarge]
      rw [bind_of_error hwrite]
      exact .refused _
    · have hwrite : write payload (.framed ⟨stream, maxSize, remaining, []⟩) =
          .ok () (.framed ⟨stream, maxSize, remaining, payload⟩) := by
        simp only [write, dispatch, onPart, Framed.write, List.length_nil, if_neg hlarge, List.nil_append]
      have hflush : flush (.framed ⟨stream, maxSize, remaining, payload⟩) =
          stream.hand (Framed.encode payload) fun stream => .framed ⟨stream, maxSize, remaining, []⟩ := by
        simp only [flush, dispatch, onPart, Framed.flush, bind, EStateM.bind, get_ok, hne, if_false, set_ok,
          Framed.onStream, Stream.hand]
        cases Stream.write (Framed.encode payload) stream <;> rfl
      rw [bind_of_ok hwrite, hflush]
      exact .hand _ stream (fun _ => rfl) fun _ => rfl
  | header layer =>
    obtain ⟨stream, maxSize, head, unread, pending⟩ := layer
    obtain rfl : pending = [] := hrest
    have hwrite : write payload (.header ⟨stream, maxSize, head, unread, []⟩) =
        .ok () (.header ⟨stream, maxSize, head, unread, payload⟩) := rfl
    rw [bind_of_ok hwrite]
    simp only [flush, dispatch, onPart, Enveloped.flush, hne, if_false]
    by_cases hwords : EnvelopeHead.maxWords < head.encodeBlock.length / 4
    · simp only [hwords, if_true]
      exact .refused _
    · simp only [hwords, if_false]
      by_cases hlarge : maxSize.toNat < EnvelopeHead.fixedSize + head.encodeBlock.length + payload.length
      · simp only [hlarge, if_true]
        exact .refused _
      · simp only [hlarge, if_false]
        let octets := Bytes.bigEndian 4 (EnvelopeHead.fixedSize + head.encodeBlock.length + payload.length) ++
          head.encodeFixed (head.encodeBlock.length / 4) ++ head.encodeBlock ++ payload
        have hhand : Handed (.header ⟨stream, maxSize, head, unread, []⟩) (stream.hand octets fun stream =>
            .header ⟨stream, maxSize, { head with outgoing := ∅ }, unread, []⟩) :=
          .hand octets stream (fun _ => rfl) fun _ => rfl
        rw [Stream.hand] at hhand
        cases hw : Stream.write octets stream <;> rw [hw] at hhand <;> exact hhand

end Transport

namespace Session

def Writable (format : Format) (header : MessageHeader) (body : Value) : Prop :=
  (Utf8.encode header.name).length ≤ Endpoint.maxSize ∧ body.Throughout format.Accepts

/-- Once a message is laid out, sending it is one action of the transport. -/
theorem send_written {header : MessageHeader} {body : Value} {session : Session} (hrest : session.AtRest)
    (hwritable : Writable session.format header body) :
    send header body.write session = onPart transport (fun session transport => session.mapTransport fun _ => transport)
      (do Transport.write (session.payload header body); Transport.flush) (session.addressed header) := by
  have hhead := WireM.writes_messageBegin session.endpoint.codec.reset header
  have hbody := Value.writes_value body session.endpoint.codec.idle_reset
  rw [session.endpoint.codec.format_reset] at hhead hbody
  have hwrite := (hhead.seq hbody (session.addressed header).endpoint.channel).1 hwritable
  have hne : session.payload header body ≠ [] :=
    List.append_ne_nil_of_left_ne_nil (Format.message_ne_nil _ _) _
  have hfull : ((session.addressed header).endpoint.channel.append (session.payload header body)).pending =
      session.payload header body := by
    change session.endpoint.channel.pending ++ _ = _
    rw [hrest.1, List.nil_append]
  have hflush := Channel.flush_eq (by rw [hfull]; exact hne :
    ((session.addressed header).endpoint.channel.append (session.payload header body)).pending ≠ [])
  rw [hfull] at hflush
  have hact : (do WireM.writeMessageBegin header; body.write; WireM.flush) (session.addressed header).endpoint =
      WireM.flush ⟨session.endpoint.codec.reset,
        (session.addressed header).endpoint.channel.append (session.payload header body)⟩ := by
    rw [← bind_assoc]
    exact bind_of_ok hwrite
  have hsame (transport : Transport) : ({ session.addressed header with endpoint :=
      ⟨session.endpoint.codec.reset, { (session.addressed header).endpoint.channel with pending := [], transport }⟩ } :
      Session) = (session.addressed header).mapTransport fun _ => transport := by
    rw [← hrest.1]
    rfl
  cases hresult : (do Transport.write (session.payload header body); Transport.flush : TransportM Unit)
      (session.addressed header).transport with
  | ok value transport =>
    have hwire := hact.trans (Endpoint.channel_ok (hflush.trans (onPart_ok hresult)))
    rw [send_eq, onWire, onPart_ok hwire, onPart_ok hresult]
    exact congrArg _ (hsame transport)
  | error err transport =>
    have hwire := hact.trans (Endpoint.channel_error (hflush.trans (onPart_error hresult)))
    rw [send_eq, onWire, onPart_error hwire, onPart_error hresult]
    exact congrArg _ (hsame transport)

/-- Nothing waits to be sent, and messages are laid out and framed in a certain way. -/
structure Steady (format : Format) (kind : TransportKind) (session : Session) : Prop where
  atRest : session.AtRest
  format : session.format = format
  kind : session.transport.kind = kind

private theorem steady_addressed {session : Session} (hrest : session.AtRest) (header : MessageHeader) :
    (session.addressed header).Steady session.format session.transport.kind :=
  ⟨⟨hrest.1, (session.withheld_addressed header).trans hrest.2⟩, session.endpoint.codec.format_reset,
    session.kind_addressed header⟩

/-- A message that can be laid out is refused and the session is only set for it, or its sending ends in no such way.
In either case the next message is laid out and framed alike. -/
theorem send_cases {header : MessageHeader} {body : Value} {session : Session} (hrest : session.AtRest)
    (hwritable : Writable session.format header body) :
    ((∃ err, send header body.write session = .error (.framing err) (session.addressed header)) ∨
        ∀ err after, send header body.write session ≠ .error (.framing err) after) ∧
      (stateOf (send header body.write session)).Steady session.format session.transport.kind := by
  obtain ⟨hatRest, hformat, hkind⟩ := steady_addressed hrest header
  have hne : session.payload header body ≠ [] :=
    List.append_ne_nil_of_left_ne_nil (Format.message_ne_nil _ _) _
  have hhanded := Transport.handed_write_flush hne hatRest.2
  rw [send_written hrest hwritable]
  generalize hresult : (do Transport.write (session.payload header body); Transport.flush : TransportM Unit)
    (session.addressed header).transport = result at hhanded
  cases hhanded with
  | refused err =>
    rw [onPart_error hresult]
    exact ⟨.inl ⟨err, rfl⟩, hatRest, hformat, hkind⟩
  | failed cause hnone hsame =>
    rw [onPart_error hresult]
    refine ⟨.inr fun err after h => ?_, ⟨hatRest.1, hnone⟩, hformat, hsame.trans hkind⟩
    cases (EStateM.Result.error.inj h).1
  | sent hnone hsame =>
    rw [onPart_ok hresult]
    refine ⟨.inr fun err after h => ?_, ⟨hatRest.1, hnone⟩, hformat, hsame.trans hkind⟩
    cases h

private theorem error_of_shown {act : SessionM Unit} {session : Session} {err : WireError} {written : Bytes}
    (h : shown act session = (some err, written)) : ∃ after, act session = .error err after ∧
      after.stream.written = written := by
  unfold shown at h
  split at h
  · cases h
  · next after hact =>
    cases h
    exact ⟨after, hact, rfl⟩

/-! ## What later messages see -/

/-- What the messages to come see of a session: the codec is reset for each of them, and the envelope names the encoding
of its own message. -/
def settled (session : Session) : Session :=
  { session with endpoint := {
      codec := session.endpoint.codec.reset
      channel := { session.endpoint.channel with
        transport := session.transport.mapHead fun head => { head with encoding := .binary } } } }

def tell (setting : Enveloped.Setting) : Session → Session := mapTransport (Transport.mapHead setting.apply)

theorem addressed_settled (session : Session) (header : MessageHeader) :
    session.settled.addressed header = session.addressed header := by
  obtain ⟨config, codec, transport, readAhead, pending, captured⟩ := session
  cases codec <;> cases transport <;> rfl

/-- Without envelopes, nothing is left of a message for which the session was set. -/
theorem settled_addressed {session : Session} (hkind : session.transport.kind ≠ .header) (header : MessageHeader) :
    (session.addressed header).settled = session.settled := by
  obtain ⟨config, codec, transport, readAhead, pending, captured⟩ := session
  cases transport with
  | raw stream => cases codec <;> rfl
  | framed layer => cases codec <;> rfl
  | header layer => exact absurd rfl hkind

theorem settled_tell (setting : Enveloped.Setting) (session : Session) :
    (session.tell setting).settled = (session.settled.tell setting).settled := by
  obtain ⟨config, codec, transport, readAhead, pending, captured⟩ := session
  cases codec <;> cases transport <;> cases setting <;> rfl

end Session

/-- What the user of a session does to send messages: he says something in the envelopes to come, or sends one. -/
inductive Posting where
  | tell (setting : Enveloped.Setting)
  | send (header : MessageHeader) (body : Value)

namespace Posting
open Session

/-- The session afterwards, whether a message was sent or not. -/
def step (session : Session) : Posting → Session
  | .tell setting => session.tell setting
  | .send header body => stateOf (Session.send header body.write session)

def seen (session : Session) : Posting → List (Option WireError × Bytes)
  | .tell _ => []
  | .send header body => [shown (Session.send header body.write) session]

def outcomes : List Posting → Session → List (Option WireError × Bytes)
  | [], _ => []
  | posting :: rest, session => posting.seen session ++ outcomes rest (posting.step session)

def Writable (format : Format) : Posting → Prop
  | .tell _ => True
  | .send header body => Session.Writable format header body

private theorem outcomes_append (front rest : List Posting) (session : Session) :
    outcomes (front ++ rest) session = outcomes front session ++ outcomes rest (front.foldl step session) := by
  induction front generalizing session with
  | nil => rfl
  | cons posting front ih => rw [List.cons_append, outcomes, outcomes, ih, List.append_assoc, List.foldl_cons]

/-- Sessions that look the same to later messages send them alike. -/
theorem outcomes_congr {session session' : Session} (h : session.settled = session'.settled)
    (postings : List Posting) : outcomes postings session = outcomes postings session' := by
  induction postings generalizing session session' with
  | nil => rfl
  | cons posting rest ih =>
    cases posting with
    | tell setting =>
      refine congrArg (seen session (.tell setting) ++ ·) (ih ?_)
      rw [step, step, settled_tell, h, ← settled_tell]
    | send header body =>
      have hsame : Session.send header body.write session = Session.send header body.write session' := by
        rw [send_eq, send_eq, ← addressed_settled, h, addressed_settled]
      simp only [outcomes, seen, step, shown, hsame]

private theorem steady_step {format : Format} {kind : TransportKind} {session : Session}
    (h : session.Steady format kind)
    {posting : Posting} (hwritable : posting.Writable format) : (posting.step session).Steady format kind := by
  cases posting with
  | tell setting =>
    obtain ⟨⟨hpending, hwithheld⟩, hformat, hkind⟩ := h
    obtain ⟨config, codec, transport, readAhead, pending, captured⟩ := session
    cases transport <;> exact ⟨⟨hpending, hwithheld⟩, hformat, hkind⟩
  | send header body =>
    obtain ⟨hrest, rfl, rfl⟩ := h
    exact (send_cases hrest hwritable).2

private theorem steady_steps {format : Format} {kind : TransportKind} {session : Session}
    (h : session.Steady format kind)
    {postings : List Posting} (hwritable : ∀ posting ∈ postings, posting.Writable format) :
    (postings.foldl step session).Steady format kind := by
  induction postings generalizing session with
  | nil => exact h
  | cons posting rest ih =>
    obtain ⟨hfirst, hrest⟩ := List.forall_mem_cons.mp hwritable
    exact ih (steady_step h hfirst) hrest

def numbered (header : MessageHeader) : List Posting :=
  if header.kind.isRequest then [.tell (.seqId header.seqId.toUInt32)] else []

private theorem outcomes_numbered (header : MessageHeader) (rest : List Posting) (session : Session) :
    outcomes (numbered header ++ rest) session = outcomes rest (session.addressed header) := by
  rw [outcomes_append]
  have hnone : outcomes (numbered header) session = [] := by
    rw [numbered]
    split <;> rfl
  rw [hnone, List.nil_append]
  apply outcomes_congr
  obtain ⟨config, codec, transport, readAhead, pending, captured⟩ := session
  by_cases hrequest : header.kind.isRequest = true
  · simp only [numbered, addressed, hrequest, if_true, List.foldl_cons, List.foldl_nil, step]
    cases codec <;> cases transport <;> rfl
  · simp only [numbered, addressed, hrequest]
    cases codec <;> cases transport <;> rfl

/-- A message is refused because its frame or envelope would be too large, or because its headers do not fit. The stream
has got nothing of it, and all messages after it are seen exactly as if it had not been written; where there are
envelopes, as if all that had happened were that a request sets the number of the next one. What the user had said for
its envelope, its own headers among it, is said in the next one. -/
theorem refused_as_unwritten {session after : Session} {before later : List Posting} {header : MessageHeader}
    {body : Value} {err : FramingError} (hrest : session.AtRest)
    (hwritable : ∀ posting ∈ before ++ [.send header body], posting.Writable session.format)
    (hrefused : Session.send header body.write (before.foldl step session) = .error (.framing err) after) :
    ∃ rest, outcomes (before ++ .send header body :: later) session = outcomes before session ++
        (some (.framing err), (before.foldl step session).stream.written) :: rest ∧
      outcomes (before ++ (numbered header ++ later)) session = outcomes before session ++ rest ∧
      (session.transport.kind ≠ .header → outcomes (before ++ later) session = outcomes before session ++ rest) := by
  obtain ⟨hbefore, hmessage⟩ := List.forall_mem_append.mp hwritable
  have hsteady := steady_steps ⟨hrest, rfl, rfl⟩ hbefore
  have hlaid : Session.Writable (before.foldl step session).format header body :=
    hsteady.format ▸ hmessage _ List.mem_cons_self
  obtain ⟨⟨err', hsend⟩ | hnot, -⟩ := send_cases hsteady.atRest hlaid
  · obtain ⟨herr, rfl⟩ := EStateM.Result.error.inj (hsend.symm.trans hrefused)
    refine ⟨outcomes later ((before.foldl step session).addressed header), ?_, ?_, fun hkind => ?_⟩
    · rw [outcomes_append, outcomes, seen, step, shown, hrefused, ← written_addressed header]
      rfl
    · rw [outcomes_append, outcomes_numbered]
    · rw [outcomes_append]
      exact congrArg _ (outcomes_congr (settled_addressed (hsteady.kind ▸ hkind) header).symm later)
  · exact absurd hrefused (hnot err after)

def tight : Session :=
  { config := { transport := .header, maxFrameSize := 40 }
    endpoint := { codec := .binary {}, channel := { transport := .header { stream := {}, maxSize := 40 } } } }

def empty : Value := .struct []
def large : MessageHeader := ⟨"a message with a long name", .call, 1⟩
def small : MessageHeader := ⟨"ping", .call, 2⟩

/-- A large message with a header of its own is refused, and then a small one is sent. -/
theorem refused_as_unwritten_tight : ∃ after rest,
    Session.send large empty.write (tight.tell (.once "k" "v")) = .error (.framing (.tooLarge 57 40)) after ∧
    outcomes [.tell (.once "k" "v"), .send large empty, .send small empty] tight =
      (some (.framing (.tooLarge 57 40)), []) :: rest ∧
    outcomes [.tell (.once "k" "v"), .tell (.seqId 1), .send small empty] tight = rest := by
  have hlaid {header : MessageHeader} (h : (Utf8.encode header.name).length ≤ Endpoint.maxSize) :
      Writable tight.format (.send header empty) :=
    ⟨h, Value.throughout_struct.mpr ⟨trivial, nofun⟩⟩
  have hwritable : ∀ posting ∈ [.tell (.once "k" "v")] ++ [.send large empty], Writable tight.format posting :=
    List.forall_mem_cons.mpr ⟨trivial, List.forall_mem_singleton.mpr (hlaid (by decide +kernel))⟩
  obtain ⟨after, hrefused, -⟩ := error_of_shown (by decide +kernel :
    shown (Session.send large empty.write) (tight.tell (.once "k" "v")) = (some (.framing (.tooLarge 57 40)), []))
  obtain ⟨rest, hall, hunwritten, -⟩ :=
    @refused_as_unwritten tight after [.tell (.once "k" "v")] [.send small empty] large empty _ ⟨rfl, rfl⟩ hwritable
      hrefused
  exact ⟨after, rest, hrefused, hall, hunwritten⟩

/-- The header of the refused message goes out with the small one, which had none of its own. -/
theorem own_header_outlives_refusal :
    outcomes [.tell (.once "k" "v"), .send large empty, .send small empty] tight =
      [(some (.framing (.tooLarge 57 40)), []),
        (none, [0, 0, 0, 35, 15, 255, 0, 0, 0, 0, 0, 2, 0, 2, 0, 0, 1, 1, 1, 107, 1, 118] ++
          tight.format.message small ++ [0])] ∧
    outcomes [.send small empty] tight =
      [(none, [0, 0, 0, 31, 15, 255, 0, 0, 0, 0, 0, 2, 0, 1, 0, 0, 0, 0] ++ tight.format.message small ++ [0])] ∧
    ∀ refusal, outcomes [.tell (.once "k" "v"), .send large empty, .send small empty] tight ≠
      refusal :: outcomes [.send small empty] tight := by
  have hlater : outcomes [.tell (.once "k" "v"), .send large empty, .send small empty] tight =
      [(some (.framing (.tooLarge 57 40)), []),
        (none, [0, 0, 0, 35, 15, 255, 0, 0, 0, 0, 0, 2, 0, 2, 0, 0, 1, 1, 1, 107, 1, 118] ++
          tight.format.message small ++ [0])] := by decide +kernel
  have halone : outcomes [.send small empty] tight =
      [(none, [0, 0, 0, 31, 15, 255, 0, 0, 0, 0, 0, 2, 0, 1, 0, 0, 0, 0] ++ tight.format.message small ++ [0])] := by
    decide +kernel
  refine ⟨hlater, halone, fun refusal h => ?_⟩
  rw [hlater, halone] at h
  exact absurd (List.cons.inj h).2 (by decide +kernel)

end Posting
end RpcWire
