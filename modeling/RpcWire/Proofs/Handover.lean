import RpcWire.Client.Connection
import RpcWire.Proofs.Layout.Gathering
import RpcWire.Proofs.Sending

/-! How a message comes to a stream: its octets are handed over in one write, which the stream takes whole or in
part, or sending fails before that. -/
namespace RpcWire

namespace Stream

def unhindered (stream : Stream) : Stream := { stream with limit := none }

def hand {σ : Type} (octets : Bytes) (onto : Stream → σ) (stream : Stream) : EStateM.Result WireError σ Unit :=
  match write octets stream with
  | .ok () after => .ok () (onto after)
  | .error err after => .error err (onto after)

/-- A stream either takes all octets, or fails after a part of them. -/
theorem write_cases (octets : Bytes) (stream : Stream) :
    write octets stream = .ok () (stream.sent octets) ∨
      ∃ failure after count, count < octets.length ∧ after.written = stream.written ++ octets.take count ∧
        write octets stream = .error (.io failure) after := by
  cases hlimit : stream.limit with
  | none => exact Or.inl ((write_okIff octets stream).1 fun limit h => by rw [hlimit] at h; cases h)
  | some limit =>
    by_cases hroom : octets.length ≤ limit.room
    · refine Or.inl ((write_okIff octets stream).1 fun other h => ?_)
      rw [hlimit] at h
      cases h
      exact hroom
    · have hpart : write octets stream = .error (.io limit.failure) { stream with
          written := stream.written ++ octets.take limit.room
          limit := some { limit with room := limit.room - octets.length } } := by
        simp only [write, hlimit]
        rw [if_neg hroom]
      exact Or.inr ⟨limit.failure, _, limit.room, Nat.lt_of_not_le hroom, rfl, hpart⟩

private theorem write_unhindered (octets : Bytes) (stream : Stream) :
    write octets stream.unhindered = .ok () (stream.unhindered.sent octets) :=
  (write_okIff octets stream.unhindered).1 fun limit h => by cases h

end Stream

/-- The action hands the stream below some octets in one write, the same on every stream, or fails before. -/
def Hands {σ : Type} (onto : σ → Stream → σ) (act : EStateM WireError σ Unit) (before : σ) : Prop :=
  ∃ after,
    (∃ err, ∀ stream, act (onto before stream) = .error err (onto after stream)) ∨
      ∃ octets, octets ≠ [] ∧ ∀ stream, act (onto before stream) = Stream.hand octets (onto after) stream

namespace Hands
variable {σ τ : Type} {onto : σ → Stream → σ} {onto' : τ → Stream → τ} {act : EStateM WireError σ Unit} {before : σ}

/-- An action on one part of a larger state hands over what it hands over on the part. -/
theorem lift {act' : EStateM WireError τ Unit} (whole : σ → τ) (h : Hands onto act before)
    (hact : ∀ part, act' (whole part) = onPart (fun _ => part) (fun _ => whole) act (whole part))
    (honto : ∀ part stream, onto' (whole part) stream = whole (onto part stream)) :
    Hands onto' act' (whole before) := by
  obtain ⟨after, ⟨err, herr⟩ | ⟨octets, hne, hhand⟩⟩ := h
  · refine ⟨whole after, Or.inl ⟨err, fun stream => ?_⟩⟩
    rw [honto, honto, hact]
    simp only [onPart, herr]
  · refine ⟨whole after, Or.inr ⟨octets, hne, fun stream => ?_⟩⟩
    rw [honto, hact, onPart, hhand, Stream.hand, Stream.hand]
    cases Stream.write octets stream <;> simp only [honto]

/-- On every stream, the action does what another one does from another state. -/
private theorem congr {act' : EStateM WireError σ Unit} {before' : σ} (h : Hands onto act before)
    (heq : ∀ stream, act' (onto before' stream) = act (onto before stream)) : Hands onto act' before' := by
  obtain ⟨after, ⟨err, herr⟩ | ⟨octets, hne, hhand⟩⟩ := h
  · exact ⟨after, Or.inl ⟨err, fun stream => (heq stream).trans (herr stream)⟩⟩
  · exact ⟨after, Or.inr ⟨octets, hne, fun stream => (heq stream).trans (hhand stream)⟩⟩

private theorem of_error (err : WireError) (after : σ)
    (herr : ∀ stream, act (onto before stream) = .error err (onto after stream)) : Hands onto act before :=
  ⟨after, Or.inl ⟨err, herr⟩⟩

end Hands

private theorem Framed.flush_hands {layer : Framed} (hne : layer.pending ≠ []) :
    Hands (fun layer stream => { layer with stream }) flush layer := by
  refine ⟨{ layer with pending := [] }, Or.inr ⟨encode layer.pending, ?_, fun stream => ?_⟩⟩
  · rw [encode]
    exact List.append_ne_nil_of_right_ne_nil _ hne
  · simp only [flush, bind, EStateM.bind, get_ok, hne, if_false, onStream, onPart, Stream.hand, set_ok]
    cases Stream.write (encode layer.pending) stream <;> rfl

private theorem Enveloped.flush_hands {layer : Enveloped} (hne : layer.pending ≠ []) :
    Hands (fun layer stream => { layer with stream }) flush layer := by
  by_cases hwords : EnvelopeHead.maxWords < layer.head.encodeBlock.length / 4
  · refine .of_error (.framing (.corruptHeader .headersDoNotFit)) { layer with pending := [] } fun stream => ?_
    simp only [flush, hne, hwords, if_true, if_false]
  · let size := EnvelopeHead.fixedSize + layer.head.encodeBlock.length + layer.pending.length
    by_cases hsize : layer.maxSize.toNat < size
    · refine .of_error (.framing (.tooLarge size layer.maxSize)) { layer with pending := [] } fun stream => ?_
      simp only [flush, hne, hwords, if_false]
      exact if_pos hsize
    · refine ⟨{ layer with pending := [], head := { layer.head with outgoing := ∅ } }, Or.inr
        ⟨Bytes.bigEndian 4 size ++ layer.head.encodeFixed (layer.head.encodeBlock.length / 4) ++
          layer.head.encodeBlock ++ layer.pending, List.append_ne_nil_of_right_ne_nil _ hne, fun stream => ?_⟩⟩
      simp only [flush, hne, hwords, if_false]
      apply (if_neg hsize).trans
      rw [Stream.hand]
      cases Stream.write _ stream <;> rfl

namespace Transport

private theorem flush_hands {transport : Transport} (hne : transport.withheld ≠ []) :
    Hands withStream flush transport := by
  cases transport with
  | raw stream => exact absurd rfl hne
  | framed layer => exact (Framed.flush_hands hne).lift Transport.framed (fun _ => rfl) fun _ _ => rfl
  | header layer => exact (Enveloped.flush_hands hne).lift Transport.header (fun _ => rfl) fun _ _ => rfl

private theorem write_flush_hands {payload : Bytes} (hne : payload ≠ []) (transport : Transport) :
    Hands withStream (do write payload; flush) transport := by
  cases transport with
  | raw old =>
    refine ⟨.raw old, Or.inr ⟨payload, hne, fun stream => ?_⟩⟩
    simp only [withStream, Stream.hand, bind, EStateM.bind, write, dispatch, onPart]
    cases Stream.write payload stream <;> rfl
  | framed layer =>
    let size := layer.pending.length + payload.length
    by_cases hsize : layer.maxSize.toNat < size
    · refine .of_error (.framing (.tooLarge size layer.maxSize)) (.framed { layer with pending := [] }) fun stream => ?_
      apply bind_of_error
      simp only [withStream, write, dispatch, onPart, Framed.write]
      rw [if_pos hsize]
    · have hfull : layer.pending ++ payload ≠ [] := List.append_ne_nil_of_right_ne_nil _ hne
      have hflush : Hands withStream flush (.framed { layer with pending := layer.pending ++ payload }) :=
        flush_hands hfull
      have hwrite (stream : Stream) : write payload (.framed { layer with stream }) =
          .ok () (.framed { layer with stream, pending := layer.pending ++ payload }) := by
        simp only [write, dispatch, onPart, Framed.write]
        rw [if_neg hsize]
      exact hflush.congr fun stream => bind_of_ok (hwrite stream)
  | header layer =>
    have hfull : layer.pending ++ payload ≠ [] := List.append_ne_nil_of_right_ne_nil _ hne
    have hflush : Hands withStream flush (.header { layer with pending := layer.pending ++ payload }) :=
      flush_hands hfull
    exact hflush.congr fun stream => bind_of_ok rfl

end Transport

def Channel.onto (channel : Channel) (stream : Stream) : Channel :=
  { channel with transport := channel.transport.withStream stream }

private theorem Channel.flush_hands {channel : Channel} (hne : channel.pending ≠ []) :
    Hands onto flush channel := by
  have hship : Hands onto (onTransport (do Transport.write channel.pending; Transport.flush))
      { channel with pending := [] } :=
    (Transport.write_flush_hands hne channel.transport).lift
      (fun transport => { channel with pending := [], transport }) (fun _ => rfl) fun _ _ => rfl
  exact hship.congr fun stream => flush_eq hne

def Endpoint.onto {κ : Type} (endpoint : Endpoint κ) (stream : Stream) : Endpoint κ :=
  { endpoint with channel := endpoint.channel.onto stream }

/-- A head, a body that only gathers octets and a flush hand over one frame or envelope. -/
theorem WireM.message_hands {body : WireM Unit} (hbody : Gathers body) (header : MessageHeader)
    (endpoint : Endpoint Codec) : Hands Endpoint.onto (do writeMessageBegin header; body; flush) endpoint := by
  obtain ⟨codec, channel⟩ := endpoint
  have hhead := writes_messageBegin codec header
  by_cases hname : (Utf8.encode header.name).length ≤ Endpoint.maxSize
  · have hheadOk (stream : Stream) := (hhead (channel.onto stream)).1 hname
    obtain ⟨codec', bytes, ⟨_, hok⟩ | ⟨err, herr⟩⟩ := hbody codec
    · let full := (channel.append (codec.format.message header)).append bytes
      have hne : full.pending ≠ [] := List.append_ne_nil_of_left_ne_nil
        (List.append_ne_nil_of_right_ne_nil _ (Format.message_ne_nil _ _)) _
      have hflush : Hands Endpoint.onto flush ⟨codec', full⟩ :=
        (Channel.flush_hands hne).lift (fun channel => (⟨codec', channel⟩ : Endpoint Codec)) (fun _ => rfl)
          fun _ _ => rfl
      exact hflush.congr fun stream => (bind_of_ok (hheadOk stream)).trans (bind_of_ok (hok _))
    · exact .of_error err ⟨codec', (channel.append (codec.format.message header)).append bytes⟩ fun stream =>
        (bind_of_ok (hheadOk stream)).trans (bind_of_error (herr _))
  · obtain ⟨codec', bytes, ⟨_, hok⟩ | ⟨err, herr⟩⟩ := gathers_messageBegin header codec
    · exact absurd ((hhead channel).2 _ _ (hok channel)) hname
    · exact .of_error err ⟨codec', channel.append bytes⟩ fun stream => bind_of_error (herr _)

namespace Session

def onto (session : Session) (stream : Stream) : Session := session.mapStream fun _ => stream

@[simp] theorem stream_onto (session : Session) (stream : Stream) : (session.onto stream).stream = stream := by
  cases hs : session.endpoint.channel.transport <;>
    simp [onto, mapStream, mapTransport, mapChannel, Session.stream, transport, hs, Transport.withStream,
      Transport.stream]

private theorem onto_stream (session : Session) : session.onto session.stream = session := by
  obtain ⟨config, codec, transport, readAhead, pending, captured⟩ := session
  cases transport <;> rfl

private theorem addressed_onto (header : MessageHeader) (session : Session) (stream : Stream) :
    (session.onto stream).addressed header = (session.addressed header).onto stream := by
  obtain ⟨config, codec, transport, readAhead, pending, captured⟩ := session
  cases transport <;> rfl

/-- Sending a message hands its octets over in one write. -/
theorem send_hands {body : WireM Unit} (hbody : Gathers body) (header : MessageHeader) (session : Session) :
    Hands onto (send header body) session := by
  have hwire : Hands onto (onWire (do WireM.writeMessageBegin header; body; WireM.flush)) (session.addressed header) :=
    (WireM.message_hands hbody header (session.addressed header).endpoint).lift
      (fun endpoint => { session.addressed header with endpoint }) (fun _ => rfl) fun _ _ => rfl
  exact hwire.congr fun stream => (send_eq header body _).trans (by rw [addressed_onto])

section
variable {header : MessageHeader} {body : WireM Unit} {session after : Session}

/-- What was sent is what a stream without a limit gets. -/
theorem send_of_ok (hbody : Gathers body) (h : send header body session = .ok () after) :
    ∃ octets whole, octets ≠ [] ∧ after.stream.written = session.stream.written ++ octets ∧
      send header body (session.onto session.stream.unhindered) = .ok () whole ∧
      whole.stream.written = session.stream.written ++ octets := by
  obtain ⟨base, ⟨err, herr⟩ | ⟨octets, hne, hhand⟩⟩ := send_hands hbody header session
  · rw [← onto_stream session, herr] at h
    cases h
  · rw [← onto_stream session, hhand, Stream.hand] at h
    refine ⟨octets, base.onto (session.stream.unhindered.sent octets), hne, ?_, ?_, ?_⟩
    · rcases session.stream.write_cases octets with hw | ⟨failure, part, count, _, _, hw⟩
      · rw [hw] at h
        cases h
        rw [stream_onto, Stream.sent]
      · rw [hw] at h
        cases h
    · rw [hhand, Stream.hand, Stream.write_unhindered]
    · rw [stream_onto, Stream.sent, Stream.unhindered]

/-- Where sending fails, the stream lacks the end of what a stream without a limit gets. -/
theorem send_of_error {err : WireError} (hbody : Gathers body) (h : send header body session = .error err after) :
    ∃ part, after.stream.written = session.stream.written ++ part ∧
      ∀ whole, send header body (session.onto session.stream.unhindered) = .ok () whole →
        ∃ rest, rest ≠ [] ∧ whole.stream.written = session.stream.written ++ (part ++ rest) := by
  obtain ⟨base, ⟨err, herr⟩ | ⟨octets, hne, hhand⟩⟩ := send_hands hbody header session
  · rw [← onto_stream session, herr] at h
    cases h
    refine ⟨[], by rw [stream_onto, List.append_nil], fun whole hwhole => ?_⟩
    rw [herr] at hwhole
    cases hwhole
  · rw [← onto_stream session, hhand, Stream.hand] at h
    rcases session.stream.write_cases octets with hw | ⟨failure, part, count, hcount, hpart, hw⟩
    · rw [hw] at h
      cases h
    · rw [hw] at h
      cases h
      refine ⟨octets.take count, by rw [stream_onto, hpart], fun whole hwhole => ⟨octets.drop count, ?_, ?_⟩⟩
      · exact List.ne_nil_of_length_pos (by rw [List.length_drop]; omega)
      · rw [hhand, Stream.hand, Stream.write_unhindered] at hwhole
        cases hwhole
        rw [stream_onto, Stream.sent, Stream.unhindered, List.take_append_drop]

end

end Session
end RpcWire
