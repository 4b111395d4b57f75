import RpcWire.Proofs.Layout.ValueWriting
import RpcWire.Proofs.Wrapping
import RpcWire.Session

/-! Sending a message: a head, a body and a flush put one frame or envelope on the stream, and succeed exactly when
all of it can be laid out and taken. -/
namespace RpcWire

namespace Stream

def Takes (stream : Stream) (count : Nat) : Prop := ∀ limit, stream.limit = some limit → count ≤ limit.room

def sent (bytes : Bytes) (stream : Stream) : Stream :=
  { stream with
    written := stream.written ++ bytes
    limit := stream.limit.map fun limit => { limit with room := limit.room - bytes.length } }

theorem write_okIff (bytes : Bytes) (stream : Stream) :
    OkIff (write bytes) stream (stream.Takes bytes.length) () (stream.sent bytes) := by
  cases hl : stream.limit with
  | none => exact ⟨fun _ => by simp [write, sent, hl], fun _ _ _ _ h => by rw [hl] at h; cases h⟩
  | some limit =>
    constructor
    · intro htakes
      have hle := htakes limit hl
      simp [write, sent, hl, hle, List.take_of_length_le hle]
    · intro value after hr other ho
      rw [hl] at ho
      cases ho
      simp only [write, hl] at hr
      split at hr
      · assumption
      · cases hr

end Stream

theorem Framed.write_okIff (bytes : Bytes) (layer : Framed) :
    OkIff (write bytes) layer (layer.pending.length + bytes.length ≤ layer.maxSize.toNat) ()
      { layer with pending := layer.pending ++ bytes } := by
  by_cases h : layer.maxSize.toNat < layer.pending.length + bytes.length
  · refine ⟨fun hle => absurd h (Nat.not_lt.mpr hle), fun value after hr => ?_⟩
    rw [write, if_pos h] at hr
    cases hr
  · exact ⟨fun _ => by rw [write, if_neg h], fun _ _ _ => Nat.le_of_not_lt h⟩

theorem Framed.flush_okIff {layer : Framed} (h : layer.pending ≠ []) :
    OkIff flush layer (layer.stream.Takes (encode layer.pending).length) ()
      { layer with pending := [], stream := layer.stream.sent (encode layer.pending) } := by
  have hw := (layer.stream.write_okIff (encode layer.pending)).onPart Framed.stream
    (fun framed stream => { framed with stream }) { layer with pending := [] }
  have hf : flush layer = onStream (Stream.write (encode layer.pending)) { layer with pending := [] } := by
    rw [flush, bind_of_ok (get_ok layer), if_neg h]
    rfl
  exact ⟨fun hc => hf.trans (hw.1 hc), fun value after hr => hw.2 value after (hf.symm.trans hr)⟩

theorem Enveloped.flush_okIff {layer : Enveloped} (h : layer.pending ≠ []) :
    OkIff flush layer
      ((layer.head.Fits ∧ EnvelopeHead.fixedSize + layer.head.encodeBlock.length + layer.pending.length ≤
        layer.maxSize.toNat) ∧ layer.stream.Takes (encode layer.head layer.pending).length) ()
      { layer with
        pending := []
        head := { layer.head with outgoing := ∅ }
        stream := layer.stream.sent (encode layer.head layer.pending) } := by
  obtain ⟨hok, honly⟩ := layer.stream.write_okIff (encode layer.head layer.pending)
  simp only [encode, ← List.append_assoc] at hok honly ⊢
  constructor
  · rintro ⟨⟨hfits, hsize⟩, htakes⟩
    have hfits' : ¬EnvelopeHead.maxWords < layer.head.encodeBlock.length / 4 := Nat.not_lt.mpr hfits
    simp only [flush, h, hfits', Nat.not_lt.mpr hsize, if_false, hok htakes]
  · intro value after hr
    simp only [flush, h, if_false] at hr
    split at hr
    · cases hr
    · next hfits =>
      split at hr
      · cases hr
      · next hsize =>
        split at hr
        · cases hr
        · next hw => exact ⟨⟨Nat.le_of_not_lt hfits, Nat.le_of_not_lt hsize⟩, honly _ _ hw⟩

namespace Transport

def sent (payload : Bytes) : Transport → Transport
  | .raw stream => .raw (stream.sent payload)
  | .framed layer => .framed { layer with pending := [], stream := layer.stream.sent (Framed.encode payload) }
  | .header layer => .header { layer with
      pending := []
      head := { layer.head with outgoing := ∅ }
      stream := layer.stream.sent (Enveloped.encode layer.head payload) }

def Sends (payload : Bytes) (transport : Transport) : Prop :=
  transport.wrapping.Fits payload transport.kind transport.maxSize ∧
    transport.stream.Takes (transport.wrapping.wrap payload).length

private theorem write_flush_okIff {payload : Bytes} (hne : payload ≠ []) {transport : Transport}
    (hrest : transport.withheld = []) :
    OkIff (do write payload; flush) transport (transport.Sends payload) () (transport.sent payload) := by
  cases transport with
  | raw stream =>
    have hpart := (stream.write_okIff payload).onPart (fun _ : Transport => stream) (fun _ => .raw) (.raw stream)
    have hwrite : OkIff (write payload) (.raw stream) _ () (.raw (stream.sent payload)) := ⟨hpart.1, hpart.2⟩
    have hflush : OkIff flush (.raw (stream.sent payload)) True () (.raw (stream.sent payload)) := .always rfl
    have hboth : OkIff (do write payload; flush) (.raw stream) _ () _ := hwrite.bind hflush
    exact hboth.congr ⟨fun h => ⟨trivial, h.1⟩, fun h => ⟨h.2, trivial⟩⟩
  | framed layer =>
    have hpending : layer.pending = [] := hrest
    have hpart := (layer.write_okIff payload).onPart (fun _ : Transport => layer) (fun _ => .framed) (.framed layer)
    simp only [hpending, List.nil_append, List.length_nil, Nat.zero_add] at hpart
    have hwrite : OkIff (write payload) (.framed layer) _ () (.framed { layer with pending := payload }) :=
      ⟨hpart.1, hpart.2⟩
    have hlayer : OkIff Framed.flush { layer with pending := payload } _ () _ := Framed.flush_okIff hne
    have hpart' := hlayer.onPart (fun _ : Transport => { layer with pending := payload }) (fun _ => .framed)
      (.framed { layer with pending := payload })
    have hflush : OkIff flush (.framed { layer with pending := payload }) _ () _ := ⟨hpart'.1, hpart'.2⟩
    exact hwrite.bind hflush
  | header layer =>
    have hpending : layer.pending = [] := hrest
    have hwrite : write payload (.header layer) = .ok () (.header { layer with pending := layer.pending ++ payload }) :=
      rfl
    rw [hpending, List.nil_append] at hwrite
    have hlayer : OkIff Enveloped.flush { layer with pending := payload } _ () _ := Enveloped.flush_okIff hne
    have hpart := hlayer.onPart (fun _ : Transport => { layer with pending := payload }) (fun _ => .header)
      (.header { layer with pending := payload })
    have hflush : OkIff flush (.header { layer with pending := payload }) _ () _ := ⟨hpart.1, hpart.2⟩
    exact ((OkIff.always hwrite).bind hflush).congr (by rw [true_and]; rfl)

end Transport

/-- Flushing a channel is one action of the transport, once nothing is pending any more. -/
theorem Channel.flush_eq {channel : Channel} (hne : channel.pending ≠ []) :
    flush channel =
      onTransport (do Transport.write channel.pending; Transport.flush) { channel with pending := [] } := by
  rw [flush, bind_of_ok (get_ok channel), if_pos hne]
  exact (onPart_bind Channel.transport (fun channel transport => { channel with transport }) (fun _ _ => rfl)
    (fun _ _ _ => rfl) (Transport.write channel.pending) (fun _ => Transport.flush) { channel with pending := [] }).symm

/-- Flushing a channel sends what is pending as one frame or envelope. -/
theorem Channel.flush_okIff {channel : Channel} (hne : channel.pending ≠ [])
    (hrest : channel.transport.withheld = []) :
    OkIff flush channel (channel.transport.Sends channel.pending) ()
      { channel with pending := [], transport := channel.transport.sent channel.pending } := by
  have hpart := (Transport.write_flush_okIff hne hrest).onPart Channel.transport
    (fun channel transport => { channel with transport }) { channel with pending := [] }
  have hflush := Channel.flush_eq hne
  exact ⟨fun hc => hflush.trans (hpart.1 hc), fun value after hr => hpart.2 value after (hflush.symm.trans hr)⟩

theorem Format.message_ne_nil (format : Format) (header : MessageHeader) : format.message header ≠ [] := by
  cases format with
  | binary =>
    apply List.append_ne_nil_of_left_ne_nil
    rw [← List.length_pos_iff, Bytes.length_bigEndian]
    decide
  | compact version => exact List.cons_ne_nil _ _

namespace Session

def send (header : MessageHeader) (body : WireM Unit) : SessionM Unit := do
  writeMessageBegin header
  onWire body
  flush

def AtRest (session : Session) : Prop :=
  session.endpoint.channel.pending = [] ∧ session.transport.withheld = []

def format (session : Session) : Format := session.endpoint.codec.format

def addressed (header : MessageHeader) (session : Session) : Session :=
  { session with endpoint := {
      codec := session.endpoint.codec.reset
      channel := { session.endpoint.channel with transport := session.transport.mapHead fun head =>
        { head with
          encoding := session.encoding
          seqId := if header.kind.isRequest then header.seqId.toUInt32 else head.seqId } } } }

def payload (header : MessageHeader) (body : Value) (session : Session) : Bytes :=
  session.format.message header ++ session.format.value body

theorem withheld_addressed (header : MessageHeader) (session : Session) :
    (session.addressed header).transport.withheld = session.transport.withheld := by
  cases hs : session.endpoint.channel.transport <;>
    simp [addressed, transport, hs, Transport.mapHead, Transport.withheld]

theorem kind_addressed (header : MessageHeader) (session : Session) :
    (session.addressed header).transport.kind = session.transport.kind := by
  cases hs : session.endpoint.channel.transport <;> simp [addressed, transport, hs, Transport.mapHead, Transport.kind]

/-- Sending is one action of the codec, once the codec and the envelope are set. -/
theorem send_eq (header : MessageHeader) (body : WireM Unit) (session : Session) :
    send header body session =
      onWire (do WireM.writeMessageBegin header; body; WireM.flush) (session.addressed header) := by
  have hsplit (act : WireM Unit) (rest : WireM Unit) (session : Session) :
      onWire (do act; rest) session = (do onWire act; onWire rest) session :=
    onPart_bind Session.endpoint (fun session endpoint => { session with endpoint }) (fun _ _ => rfl)
      (fun _ _ _ => rfl) act (fun _ => rest) session
  have htail : onWire (do body; WireM.flush) = (do onWire body; flush) := funext (hsplit body WireM.flush)
  have hencoding : session.endpoint.codec.reset.encoding = session.encoding := by
    rw [encoding]
    cases session.endpoint.codec <;> rfl
  rw [hsplit, htail, addressed, ← hencoding]
  rfl

/-- A message is sent exactly when its name and its body can be laid out, and the frame or envelope is taken. -/
theorem send_okIff {header : MessageHeader} {body : Value} {session : Session} (hrest : session.AtRest) :
    OkIff (send header body.write) session
      (((Utf8.encode header.name).length ≤ Endpoint.maxSize ∧ body.Throughout session.format.Accepts) ∧
        (session.addressed header).transport.Sends (session.payload header body)) ()
      ((session.addressed header).mapTransport (Transport.sent (session.payload header body))) := by
  obtain ⟨hpending, hwithheld⟩ := hrest
  have hformat := session.endpoint.codec.format_reset
  have hhead := WireM.writes_messageBegin session.endpoint.codec.reset header
  have hbody := Value.writes_value body session.endpoint.codec.idle_reset
  rw [hformat] at hhead hbody
  have hwrite : OkIff (do WireM.writeMessageBegin header; body.write) (session.addressed header).endpoint _ () _ :=
    hhead.seq hbody (session.addressed header).endpoint.channel
  have hfull : ((session.addressed header).endpoint.channel.append (session.payload header body)).pending =
      session.payload header body := by
    change session.endpoint.channel.pending ++ _ = _
    rw [hpending, List.nil_append]
  have hne : session.payload header body ≠ [] :=
    List.append_ne_nil_of_left_ne_nil (Format.message_ne_nil _ _) _
  have hrested : (session.addressed header).endpoint.channel.transport.withheld = [] :=
    (session.withheld_addressed header).trans hwithheld
  have hchannel := Channel.flush_okIff
    (by rw [hfull]; exact hne :
      ((session.addressed header).endpoint.channel.append (session.payload header body)).pending ≠ []) hrested
  rw [hfull] at hchannel
  have hflush := hchannel.onPart Endpoint.channel (fun endpoint channel => { endpoint with channel })
    ⟨session.endpoint.codec.reset, (session.addressed header).endpoint.channel.append (session.payload header body)⟩
  have hall : OkIff (do (do WireM.writeMessageBegin header; body.write); WireM.flush)
      (session.addressed header).endpoint _ () _ := hwrite.bind hflush
  rw [bind_assoc] at hall
  have hsession := hall.onPart Session.endpoint (fun session endpoint => { session with endpoint })
    (session.addressed header)
  refine ⟨fun hc => ?_, fun value after hr => hsession.2 value after (by rw [← hr, send_eq]; rfl)⟩
  rw [send_eq]
  apply (hsession.1 hc).trans
  have hnone : (session.addressed header).endpoint.channel =
      { (session.addressed header).endpoint.channel with pending := [] } := by
    rw [← hpending]
    rfl
  rw [mapTransport, mapChannel, hnone]
  rfl

/-- What one message adds to the stream. -/
theorem written_sent (payload : Bytes) (session : Session) :
    (session.mapTransport (Transport.sent payload)).stream.written =
      session.stream.written ++ session.transport.wrapping.wrap payload := by
  cases hs : session.endpoint.channel.transport <;>
    simp [mapTransport, mapChannel, stream, transport, hs, Transport.sent, Transport.stream, Transport.wrapping,
      Wrapping.wrap, Stream.sent]

theorem written_addressed (header : MessageHeader) (session : Session) :
    (session.addressed header).stream.written = session.stream.written := by
  cases hs : session.endpoint.channel.transport <;>
    simp [addressed, stream, transport, hs, Transport.mapHead, Transport.stream]

end Session
end RpcWire
