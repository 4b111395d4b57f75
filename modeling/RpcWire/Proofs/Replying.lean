import RpcWire.Proofs.Receiving
import RpcWire.Proofs.Sending
import RpcWire.Session.Reply

/-! Replying to requests: a session that reads requests goes on reading after it sent a reply, and the reply has the
format of the request and the number of its envelope. -/
namespace RpcWire

namespace EnvelopeHead

def Plain (head : EnvelopeHead) : Prop :=
  head.identity = none ∧ head.outgoing = ∅ ∧ head.outgoingLasting = ∅

/-- The envelope of a reply in some format. It goes out under the number and the flags that came with the
request. -/
def replying (format : Format) (head : EnvelopeHead) : EnvelopeHead :=
  { encoding := format.encoding, seqId := head.seqId, flags := head.flags }

private theorem Plain.encodeBlock {head : EnvelopeHead} (h : head.Plain) :
    head.encodeBlock = EnvelopeHead.encodeBlock { encoding := head.encoding } := by
  obtain ⟨hidentity, houtgoing, hlasting⟩ := h
  rw [EnvelopeHead.encodeBlock, onceEntries, hidentity, houtgoing, hlasting]
  rfl

end EnvelopeHead

def Wrapping.replying (format : Format) : Wrapping → Wrapping
  | .envelope head => .envelope (head.replying format)
  | other => other

/-- What a request came in decides how its reply goes out. -/
theorem Wrapping.replying_tell {wrapping : Wrapping} {payload : Bytes} {transport : Transport} {max : UInt32}
    (h : wrapping.Comes payload transport.kind max) (format : Format) :
    (wrapping.tell transport).wrapping.replying format = wrapping.replying format := by
  cases transport <;> cases wrapping <;> first | exact h.elim | rfl

private theorem Enveloped.encode_of_plain {head : EnvelopeHead} (h : head.Plain) (payload : Bytes) :
    encode head payload =
      encode { encoding := head.encoding, seqId := head.seqId, flags := head.flags } payload := by
  rw [encode, encode, h.encodeBlock]
  rfl

/-- A channel for replies: it has the settings of the session, nothing waits to be sent, everything is taken, and
envelopes are plain. -/
structure Channel.Ready (base : Channel) (config : SessionConfig) : Prop where
  kind : base.transport.kind = config.transport
  maxSize : config.transport = .raw ∨ base.transport.maxSize = config.maxFrameSize
  ending : base.transport.stream.ending = none
  limit : base.transport.stream.limit = none
  pending : base.pending = []
  withheld : base.transport.withheld = []
  plain : ∀ head, base.transport.head? = some head → head.Plain

namespace Channel

theorem ready_ofStream (config : SessionConfig) (unread : Bytes) (chunk : Option Nat) :
    Ready { transport := .ofStream config.transport { unread, chunk } config.maxFrameSize } config := by
  refine ⟨Transport.kind_ofStream _ _ _, Transport.maxSize_ofStream _ _ _, ?_, ?_, rfl, ?_, ?_⟩
  · exact congrArg Stream.ending (Transport.stream_ofStream _ _ _)
  · exact congrArg Stream.limit (Transport.stream_ofStream _ _ _)
  · cases config.transport <;> rfl
  · cases config.transport with
    | raw => exact nofun
    | framed => exact nofun
    | header =>
      rintro head ⟨⟩
      exact ⟨rfl, rfl, rfl⟩

/-- Taking in a request changes nothing that replies depend on, but the envelope that they answer. -/
theorem Ready.tell {base : Channel} {config : SessionConfig} (h : base.Ready config) (wrapping : Wrapping) :
    Ready { base with transport := wrapping.tell base.transport } config := by
  refine ⟨by simpa using h.kind, by simpa using h.maxSize, by simpa using h.ending, by simpa using h.limit, h.pending,
    ?_, ?_⟩
  · have hwithheld := h.withheld
    cases wrapping <;> cases hb : base.transport <;> rw [hb] at hwithheld <;> exact hwithheld
  · intro head hhead
    have hplain := h.plain
    cases wrapping with
    | bare => exact hplain head hhead
    | frame => exact hplain head hhead
    | envelope sent =>
      cases hb : base.transport with
      | raw stream => rw [hb] at hhead; cases hhead
      | framed layer => rw [hb] at hhead; cases hhead
      | header layer =>
        rw [hb] at hhead hplain
        obtain rfl := Option.some.inj hhead
        exact hplain layer.head rfl

end Channel

namespace Transport

def replied (format : Format) (payload : Bytes) (transport : Transport) : Transport :=
  (transport.mapHead fun head => { head with encoding := format.encoding }).sent payload

variable {format : Format} {payload : Bytes}

private theorem carries_replied {frames : List Bytes} {transport : Transport} (h : transport.Carries frames) :
    (transport.replied format payload).Carries frames := by
  cases transport <;> exact h

/-- What can be sent does not depend on the input. -/
theorem sends_mapHead_holding (f : EnvelopeHead → EnvelopeHead) (current later : Bytes) (transport : Transport) :
    ((transport.holding current later).mapHead f).Sends payload ↔ (transport.mapHead f).Sends payload := by
  cases transport <;> rfl

/-- A reply is written behind what is there already. -/
theorem written_replied {transport : Transport} (h : ∀ head, transport.head? = some head → head.Plain) :
    (transport.replied format payload).stream.written =
      transport.stream.written ++ (transport.wrapping.replying format).wrap payload := by
  cases transport with
  | raw stream => rfl
  | framed layer => rfl
  | header layer =>
    have hplain : EnvelopeHead.Plain { layer.head with encoding := format.encoding } := h layer.head rfl
    have hencode := Enveloped.encode_of_plain hplain payload
    simp only [replied, mapHead, sent, stream, Stream.sent, hencode]
    rfl

end Transport

namespace Channel

variable {base : Channel} {config : SessionConfig} {format : Format} {payload : Bytes}

theorem Ready.replied (h : base.Ready config) :
    Ready { base with transport := base.transport.replied format payload } config := by
  obtain ⟨hkind, hmax, hending, hlimit, hpending, hwithheld, hplain⟩ := h
  cases hb : base.transport with
  | raw stream =>
    rw [hb] at hkind hmax hending hlimit
    exact ⟨hkind, hmax, hending, congrArg (Option.map _) hlimit, hpending, rfl, nofun⟩
  | framed layer =>
    rw [hb] at hkind hmax hending hlimit
    exact ⟨hkind, hmax, hending, congrArg (Option.map _) hlimit, hpending, rfl, nofun⟩
  | header layer =>
    rw [hb] at hkind hmax hending hlimit hplain
    refine ⟨hkind, hmax, hending, congrArg (Option.map _) hlimit, hpending, rfl, ?_⟩
    rintro head ⟨⟩
    have hplain' := hplain layer.head rfl
    exact ⟨hplain'.1, rfl, hplain'.2.2⟩

/-- A reply that fits is sent. -/
theorem Ready.sends (h : base.Ready config)
    (hfits : (base.transport.wrapping.replying format).Fits payload config.transport config.maxFrameSize) :
    (base.transport.mapHead fun head => { head with encoding := format.encoding }).Sends payload := by
  obtain ⟨hkind, hmax, -, hlimit, -, -, hplain⟩ := h
  cases hb : base.transport with
  | raw stream =>
    rw [hb] at hlimit
    exact ⟨trivial, fun limit hl => by cases hl.symm.trans hlimit⟩
  | framed layer =>
    rw [hb] at hkind hmax hlimit hfits
    rw [← hkind] at hmax hfits
    refine ⟨?_, fun limit hl => by cases hl.symm.trans hlimit⟩
    rw [← hmax.resolve_left nofun] at hfits
    exact hfits
  | header layer =>
    rw [hb] at hkind hmax hlimit hfits hplain
    rw [← hkind] at hmax hfits
    refine ⟨?_, fun limit hl => by cases hl.symm.trans hlimit⟩
    rw [← hmax.resolve_left nofun] at hfits
    have hplain' : EnvelopeHead.Plain { layer.head with encoding := format.encoding } := hplain layer.head rfl
    have hblock : (layer.head.replying format).encodeBlock =
        EnvelopeHead.encodeBlock { layer.head with encoding := format.encoding } := hplain'.encodeBlock.symm
    obtain ⟨hwords, hsize⟩ : (layer.head.replying format).Fits ∧ EnvelopeHead.fixedSize +
        (layer.head.replying format).encodeBlock.length + payload.length ≤ layer.maxSize.toNat := hfits
    rw [EnvelopeHead.Fits, hblock] at hwords
    rw [hblock] at hsize
    exact ⟨hwords, hsize⟩

end Channel

namespace Session

private theorem transport_addressed {header : MessageHeader} (h : header.kind.isRequest = false)
    (session : Session) :
    (session.addressed header).transport =
      session.transport.mapHead fun head => { head with encoding := session.encoding } := by
  simp only [addressed, transport, h]
  rfl

/-- A reply that can be laid out and taken is sent, and the session goes on reading as before. -/
theorem Stands.send {session : Session} {config : SessionConfig} {base : Channel} {current later : Bytes}
    (h : session.Stands config base current later) (hready : base.Ready config) {header : MessageHeader}
    (hreply : header.kind.isRequest = false) {body : Value}
    (hname : (Utf8.encode header.name).length ≤ Endpoint.maxSize) (hbody : body.Throughout session.format.Accepts)
    (hfits : (base.transport.wrapping.replying session.format).Fits (session.payload header body) config.transport
      config.maxFrameSize) :
    ∃ after, Session.send header body.write session = .ok () after ∧
      after.Stands config
        { base with transport := base.transport.replied session.format (session.payload header body) }
        current later := by
  obtain ⟨hapart, hpending⟩ := h.holds.apart
  have hencoding : session.encoding = session.format.encoding := (Codec.encoding_format _).symm
  have hrest : session.AtRest := by
    have hwithheld := congrArg Transport.withheld hapart
    rw [Transport.withheld_holding, Transport.withheld_holding, hready.withheld] at hwithheld
    exact ⟨hpending.trans hready.pending, hwithheld⟩
  have hsends : (session.addressed header).transport.Sends (session.payload header body) := by
    have hbase := hready.sends hfits
    rw [← Transport.sends_mapHead_holding _ [] [], ← hapart, Transport.sends_mapHead_holding] at hbase
    rw [transport_addressed hreply, hencoding]
    exact hbase
  refine ⟨_, (send_okIff hrest).1 ⟨⟨hname, hbody⟩, hsends⟩, h.config_eq, ?_, ?_⟩
  · exact (Codec.limits_reset _).trans h.limited
  · have hholds := h.holds.mapTransport (f := Transport.replied session.format (session.payload header body))
      (fun _ transport => by cases transport <;> rfl) (fun _ _ transport => by cases transport <;> rfl)
      fun _ _ => Transport.carries_replied
    have hafter : (session.addressed header).transport.sent (session.payload header body) =
        session.transport.replied session.format (session.payload header body) := by
      rw [transport_addressed hreply, hencoding]
      rfl
    change { session.endpoint.channel with
      transport := (session.addressed header).transport.sent (session.payload header body) }.Holds _ current later
    rw [hafter]
    exact hholds

end Session
end RpcWire
