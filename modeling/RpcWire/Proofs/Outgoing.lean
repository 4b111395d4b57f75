import RpcWire.Proofs.Exchanging
import RpcWire.Proofs.Tracking.Channels

/-! What sending sees of a session. What was read ahead, what is left of a frame or an envelope, and what the other side
has said of itself are not among it: two sessions that agree on the rest send alike. -/
namespace RpcWire

/-! ## What writing sees -/

def Stream.outward (stream : Stream) : Stream := { written := stream.written, limit := stream.limit }

private theorem Stream.inward_outward : Inward outward := ⟨fun _ => rfl, fun _ => rfl, fun _ _ _ => rfl⟩

def Stream.outwardAfter (before : Bytes) (stream : Stream) : Stream :=
  { written := before ++ stream.written, limit := stream.limit }

/-- What was written before makes no difference to what is written next. -/
theorem Stream.commutes_write_outwardAfter (before bytes : Bytes) : Commutes (outwardAfter before) (write bytes) := by
  intro stream
  cases hlimit : stream.limit with
  | none => simp only [write, outwardAfter, hlimit, List.append_assoc]
  | some limit =>
    simp only [write, outwardAfter, hlimit, List.append_assoc]
    split
    · rfl
    · rfl

def EnvelopeHead.outward (head : EnvelopeHead) : EnvelopeHead :=
  { head with peerIdentity := none, incoming := ∅, incomingLasting := ∅ }

def Framed.facing (f : Stream → Stream) (layer : Framed) : Framed :=
  { layer with stream := f layer.stream, remaining := 0 }

def Framed.outward (layer : Framed) : Framed := layer.facing Stream.outward

def Enveloped.facing (f : Stream → Stream) (layer : Enveloped) : Enveloped :=
  { layer with stream := f layer.stream, head := layer.head.outward, payload := [] }

def Transport.facing (f : Stream → Stream) : Transport → Transport
  | .raw stream => .raw (f stream)
  | .framed layer => .framed (layer.facing f)
  | .header layer => .header (layer.facing f)

def Transport.outward (transport : Transport) : Transport := transport.facing Stream.outward

def Channel.facing (f : Stream → Stream) (channel : Channel) : Channel :=
  { transport := channel.transport.facing f, pending := channel.pending }

def Endpoint.facing {κ : Type} (f : Stream → Stream) (endpoint : Endpoint κ) : Endpoint κ :=
  { endpoint with channel := endpoint.channel.facing f }

def Endpoint.outward {κ : Type} (endpoint : Endpoint κ) : Endpoint κ := endpoint.facing Stream.outward

section
variable {f : Stream → Stream} (hf : ∀ bytes, Commutes f (Stream.write bytes))
include hf

private theorem Enveloped.commutes_flush_facing : Commutes (facing f) flush := by
  intro layer
  obtain ⟨stream, maxSize, head, payload, pending⟩ := layer
  have hblock : head.outward.encodeBlock = head.encodeBlock := rfl
  have hfixed (words : Nat) : head.outward.encodeFixed words = head.encodeFixed words := rfl
  simp only [flush, facing, hblock, hfixed]
  split
  · rfl
  split
  · rfl
  split
  · rfl
  rw [hf _ stream]
  cases Stream.write _ stream with
  | ok value after => rfl
  | error err after => rfl

private theorem Transport.commutes_write_facing (bytes : Bytes) : Commutes (facing f) (write bytes) :=
  commutes_dispatch (hf bytes) (Framed.commutes_write f (fun _ => 0) bytes) (fun _ => rfl)
    ⟨fun _ => rfl, fun _ => rfl, fun _ => rfl⟩

private theorem Transport.commutes_flush_facing : Commutes (facing f) flush :=
  commutes_dispatch (Commutes.pure ()) (Framed.commutes_flush hf fun _ => 0) (Enveloped.commutes_flush_facing hf)
    ⟨fun _ => rfl, fun _ => rfl, fun _ => rfl⟩

private theorem Channel.commutes_flush_facing : Commutes (facing f) flush := by
  have hon {act : TransportM Unit} (h : Commutes (Transport.facing f) act) : Commutes (facing f) (onTransport act) :=
    h.onPart (fun _ => rfl) fun _ _ => rfl
  intro channel
  by_cases hnone : channel.pending = []
  · have hflush (channel : Channel) (h : channel.pending = []) :
      flush channel = onTransport Transport.flush channel := by
      rw [flush, bind_of_ok (get_ok channel), h]
      rfl
    rw [hflush channel hnone, hflush (channel.facing f) hnone]
    exact hon (Transport.commutes_flush_facing hf) channel
  · have hsome : (channel.facing f).pending ≠ [] := hnone
    rw [flush_eq hnone, flush_eq hsome]
    exact hon ((Transport.commutes_write_facing hf _).bind fun _ => Transport.commutes_flush_facing hf)
      { channel with pending := [] }

theorem WireM.commutes_flush_facing : Commutes (Endpoint.facing f) flush :=
  (Channel.commutes_flush_facing hf).onPart (fun _ => rfl) fun _ _ => rfl

end

/-- What only gathers octets sees nothing of the stream, and nothing of what was read. -/
theorem Gathers.commutes_facing {κ α : Type} {act : CodecM κ α} (h : Gathers act) (f : Stream → Stream) :
    Commutes (Endpoint.facing f) act := by
  rintro ⟨codec, channel⟩
  obtain ⟨codec', bytes, ⟨result, hok⟩ | ⟨err, herr⟩⟩ := h codec
  · rw [hok]
    exact hok (channel.facing f)
  · rw [herr]
    exact herr (channel.facing f)

/-! ## Sending -/

/-- What a sender and the other side see of an action: the failure, if it fails, and all that was written by then. -/
def Session.shown (act : SessionM Unit) (session : Session) : Option WireError × Bytes :=
  match act session with
  | .ok _ after => (none, after.stream.written)
  | .error err after => (some err, after.stream.written)

private theorem Endpoint.written_outward {κ : Type} (endpoint : Endpoint κ) :
    endpoint.outward.channel.transport.stream.written = endpoint.channel.transport.stream.written := by
  obtain ⟨codec, transport, readAhead, pending, captured⟩ := endpoint
  cases transport <;> rfl

/-- Sessions that agree on what writing sees, once they are set for a message, send it alike. -/
theorem Session.shown_send_congr {header : MessageHeader} {body : WireM Unit} {session session' : Session}
    (hbody : Gathers body)
    (h : (session.addressed header).endpoint.outward = (session'.addressed header).endpoint.outward) :
    shown (send header body) session = shown (send header body) session' := by
  let act : WireM Unit := do WireM.writeMessageBegin header; body; WireM.flush
  have hact : Commutes Endpoint.outward act := by
    refine ((WireM.gathers_messageBegin header).commutes_facing Stream.outward).bind fun _ => ?_
    exact (hbody.commutes_facing Stream.outward).bind fun _ =>
      WireM.commutes_flush_facing (Stream.commutes_write Stream.inward_outward)
  let seen (endpoint : Endpoint Codec) : Option WireError × Bytes :=
    match act endpoint with
    | .ok _ after => (none, after.channel.transport.stream.written)
    | .error err after => (some err, after.channel.transport.stream.written)
  have hshown (session : Session) :
      shown (send header body) session = seen (session.addressed header).endpoint := by
    simp only [shown, send_eq, onWire, onPart, seen, act]
    cases (do WireM.writeMessageBegin header; body; WireM.flush : WireM Unit) (session.addressed header).endpoint <;>
    rfl
  have hseen (endpoint : Endpoint Codec) : seen endpoint.outward = seen endpoint := by
    simp only [seen, hact endpoint]
    cases act endpoint with
    | ok value after => simp only [Endpoint.written_outward]
    | error err after => simp only [Endpoint.written_outward]
  rw [hshown, hshown, ← hseen, h, hseen]

end RpcWire
