import RpcWire.Proofs.Conversation
import RpcWire.Proofs.Tracking

/-! Envelopes with any number of messages in them. A reader goes from message to message and from envelope to envelope,
over the empty ones. What an envelope names, its encoding and its number, stays with the layer until something else is
said. -/
namespace RpcWire

/-- The encoding and the number that are in force for the messages read next and for the envelope written next. -/
structure Heading where
  encoding : Encoding := .binary
  seqId : UInt32 := 0
  deriving DecidableEq

namespace EnvelopeHead

def heading (head : EnvelopeHead) : Heading := ⟨head.encoding, head.seqId⟩

def told (sent : EnvelopeHead) : Heading := ⟨.ofWire sent.encoding.toWire, sent.seqId⟩

end EnvelopeHead

structure Enclosed where
  format : Format
  message : Message

namespace Enclosed

def payload (enclosed : Enclosed) : Bytes :=
  enclosed.format.message enclosed.message.header ++ enclosed.format.value enclosed.message.body

structure Admitted (config : SessionConfig) (enclosed : Enclosed) : Prop where
  wellFormed : enclosed.message.WellFormed
  size : (Utf8.encode enclosed.message.header.name).length ≤ Endpoint.maxSize
  name : Endpoint.Within config.limits.text (Utf8.encode enclosed.message.header.name).length
  body : enclosed.message.body.Legible enclosed.format config.limits

theorem payload_ne_nil (enclosed : Enclosed) : enclosed.payload ≠ [] :=
  List.append_ne_nil_of_left_ne_nil (Format.message_ne_nil _ _) _

end Enclosed

structure Parcel where
  head : EnvelopeHead
  contents : List Enclosed

namespace Parcel

def payload (parcel : Parcel) : Bytes := parcel.contents.flatMap Enclosed.payload

def octets (parcel : Parcel) : Bytes := Enveloped.encode parcel.head parcel.payload

/-- Whether a reader with these settings takes the envelope, has room for all that is in it, and is told how it is laid
out. -/
structure Admitted (config : SessionConfig) (parcel : Parcel) : Prop where
  comes : (Wrapping.envelope parcel.head).Comes parcel.payload .header config.maxFrameSize
  contents : ∀ enclosed ∈ parcel.contents, enclosed.Admitted config
  named : ∀ enclosed ∈ parcel.contents, enclosed.format.encoding = parcel.head.told.encoding

end Parcel

/-- Where there is nothing, nothing is read. -/
theorem Stream.readLength_nothing {stream : Stream} (h : stream.unread = []) :
    readLength stream = .ok none stream ∨ ∃ err, readLength stream = .error err stream := by
  cases hend : stream.ending with
  | none => exact .inl (readLength_end h hend)
  | some cause =>
    have hread : read 4 stream = .error (.io cause) stream := by
      simp only [read, h, hend]
    have hfull : readFull 4 stream = .error (.io cause) stream := by
      rw [readFull, if_neg (by decide), hread]
    exact .inr ⟨.io cause, bind_of_error hfull⟩

private theorem Enveloped.read_nothing {n : Nat} (hn : n ≠ 0) {layer : Enveloped}
    (hpayload : layer.payload = [])
    (h : layer.stream.unread = []) : read n layer = .ok [] layer ∨ ∃ err, read n layer = .error err layer := by
  rw [read, if_neg hn]
  rcases Stream.readLength_nothing h with hlength | ⟨err, hlength⟩
  · have hawait : await layer = .ok false layer := by
      rw [await, if_neg (by simpa using hpayload)]
      split
      · next he => rw [hlength] at he; cases he
      · next he => rw [hlength] at he; cases he; rfl
      · next he => rw [hlength] at he; cases he
    rw [bind_of_ok hawait]
    exact .inl rfl
  · have hawait : await layer = .error err layer := by
      rw [await, if_neg (by simpa using hpayload)]
      split
      · next he => rw [hlength] at he; cases he; rfl
      · next he => rw [hlength] at he; cases he
      · next he => rw [hlength] at he; cases he
    exact .inr ⟨err, bind_of_error hawait⟩

/-- A layer that takes envelopes up to a size: what is in force, what is left of the envelope it is in, and what is
behind that on the stream. -/
structure Enveloped.Amid (layer : Enveloped) (max : UInt32) (heading : Heading) (current later : Bytes) : Prop where
  maxSize : layer.maxSize = max
  heading : layer.head.heading = heading
  payload : layer.payload = current
  unread : layer.stream.unread = later

def Transport.Amid (transport : Transport) (max : UInt32) (heading : Heading) (current later : Bytes) : Prop :=
  ∃ layer : Enveloped, transport = .header layer ∧ layer.Amid max heading current later

namespace Channel
variable {channel base : Channel} {max : UInt32} {heading : Heading} {current later : Bytes}

/-- The same with the octets read ahead, which are the next ones of the envelope. -/
def Amid (channel : Channel) (max : UInt32) (heading : Heading) (current later : Bytes) : Prop :=
  ∃ rest, channel.readAhead ++ rest = current ∧ channel.transport.Amid max heading rest later

theorem Amid.holds (h : channel.Amid max heading current later) : channel.Holds channel current later := by
  obtain ⟨_, rfl, layer, htransport, -, -, rfl, rfl⟩ := h
  apply Holds.of_settled
  simp only [settled, holding, htransport, Transport.putBack, Transport.holding]

/-- Reading within the envelope changes nothing else. -/
theorem Amid.of_holds {current' later' : Bytes} (hbase : base.Amid max heading current' later')
    (h : channel.Holds base current later) : channel.Amid max heading current later := by
  obtain ⟨_, -, layer, hlayer, hmax, hheading, -, -⟩ := hbase
  obtain ⟨front, frames, hs, hcurrent, hcarries⟩ := h
  have ht : channel.transport.putBack channel.readAhead =
      base.transport.holding front (frames.flatMap Framed.encode ++ later) := congrArg Channel.transport hs
  rw [hlayer] at ht hcarries
  obtain rfl : frames = [] := hcarries.eq_nil nofun
  rw [List.flatten_nil, List.append_nil] at hcurrent
  cases hc : channel.transport with
  | raw stream => rw [hc] at ht; cases ht
  | framed framed => rw [hc] at ht; cases ht
  | header layer' =>
    rw [hc] at ht
    simp only [Transport.putBack, Transport.holding, Transport.header.injEq, Enveloped.mk.injEq] at ht
    obtain ⟨hstream, hmax', hhead, hpayload, -⟩ := ht
    refine ⟨layer'.payload, by rw [hpayload, hcurrent], layer', hc, by rw [hmax', hmax], by rw [hhead, hheading], rfl,
      ?_⟩
    rw [hstream]
    rfl

/-- Between envelopes, reading ahead enters the next one, be it empty, and what it names is in force. -/
theorem Amid.enter {head : EnvelopeHead} {payload : Bytes}
    (h : channel.Amid max heading [] (Enveloped.encode head payload ++ later))
    (hcomes : (Wrapping.envelope head).Comes payload .header max) :
    ∃ entered : Channel, (∀ n, 0 < n → Channel.fill n channel = Channel.fill n entered) ∧
      entered.Amid max head.told payload later := by
  have hholds := h.holds
  obtain ⟨rest, -, layer, hlayer, hmax, -, hrest, -⟩ := h
  have hcomes' : (Wrapping.envelope head).Comes payload channel.transport.kind channel.transport.maxSize := by
    rw [hlayer]
    subst hmax
    exact hcomes
  obtain ⟨entered, hfill, hentered⟩ := hholds.enter hcomes'
  have hbase : Amid { channel with transport := (Wrapping.envelope head).tell channel.transport } max head.told
      (channel.readAhead ++ rest) layer.stream.unread :=
    ⟨rest, rfl, { layer with head := head.taking layer.head }, by rw [hlayer]; rfl, hmax, rfl, hrest, rfl⟩
  exact ⟨entered, hfill, hbase.of_holds hentered⟩

/-- Where nothing is left, reading ahead fails, and nothing changes. -/
theorem Amid.fill_nothing (h : channel.Amid max heading [] []) :
    ∃ err, ∀ n, 0 < n → Channel.fill n channel = .error err channel := by
  obtain ⟨rest, hcurrent, layer, htransport, -, -, hrest, hunread⟩ := h
  obtain ⟨hahead, rfl⟩ := List.append_eq_nil_iff.mp hcurrent
  have hshort (n : Nat) (hn : 0 < n) : ¬n ≤ channel.readAhead.length := by
    rw [hahead]
    exact Nat.not_le.mpr hn
  have hsame : ({ channel with transport := .header layer } : Channel) = channel := by rw [← htransport]
  rcases Enveloped.read_nothing (by decide : readSize ≠ 0) hrest hunread with hread | ⟨err, hread⟩
  · refine ⟨.streamClosed, fun n hn => ?_⟩
    rw [fill, if_neg (hshort n hn), htransport]
    simp only [Transport.read, Transport.dispatch, onPart, hread, hsame]
  · refine ⟨err, fun n hn => ?_⟩
    rw [fill, if_neg (hshort n hn), htransport]
    simp only [Transport.read, Transport.dispatch, onPart, hread, hsame]

end Channel

/-! ## Writing -/

section
variable {max : UInt32} {heading : Heading} {current later : Bytes}

private theorem Stream.maintains_unread_write (bytes : Bytes) : Maintains (·.unread = later) (write bytes) := by
  intro stream h
  rw [write]
  split
  · exact h
  · split <;> exact h

/-- A change of the head leaves all that is to be read. -/
theorem Channel.Amid.mapHead {channel : Channel} (h : channel.Amid max heading current later)
    {f : EnvelopeHead → EnvelopeHead} {declares : Heading → Heading}
    (hf : ∀ head : EnvelopeHead, (f head).heading = declares head.heading) :
    Amid { channel with transport := channel.transport.mapHead f } max (declares heading) current later := by
  obtain ⟨rest, hcurrent, layer, hlayer, hmax, rfl, hpayload, hunread⟩ := h
  exact ⟨rest, hcurrent, { layer with head := f layer.head }, by rw [hlayer]; rfl, hmax, hf layer.head, hpayload,
    hunread⟩

/-- A flush leaves all that is to be read, and what is in force. -/
theorem Enveloped.maintains_amid_flush : Maintains (Amid · max heading current later) flush := by
  intro layer h
  simp only [flush]
  split
  · exact h
  · split
    · exact ⟨h.maxSize, h.heading, h.payload, h.unread⟩
    · split
      · exact ⟨h.maxSize, h.heading, h.payload, h.unread⟩
      · split
        · next hw => exact ⟨h.maxSize, h.heading, h.payload, (Stream.maintains_unread_write _).of_error hw h.unread⟩
        · next hw => exact ⟨h.maxSize, h.heading, h.payload, (Stream.maintains_unread_write _).of_ok hw h.unread⟩

private theorem Transport.maintains_amid_dispatch {α : Type} {raw : StreamM α} {framed : FramedM α}
    {header : EnvelopedM α}
    (h : Maintains (Enveloped.Amid · max heading current later) header) :
    Maintains (Amid · max heading current later) (dispatch raw framed header) := by
  rintro _ ⟨layer, rfl, hlayer⟩
  have hact := h hlayer
  simp only [dispatch, onPart]
  cases hr : header layer <;> rw [hr] at hact <;> exact ⟨_, rfl, hact⟩

theorem Channel.maintains_amid_flush : Maintains (Amid · max heading current later) flush := by
  have hon {act : TransportM Unit} (h : ∀ rest, Maintains (Transport.Amid · max heading rest later) act) :
      Maintains (Amid · max heading current later) (onTransport act) := by
    rintro channel ⟨rest, hcurrent, htransport⟩
    have hact := h rest htransport
    simp only [onTransport, onPart]
    cases hr : act channel.transport <;> rw [hr] at hact <;> exact ⟨rest, hcurrent, hact⟩
  have hflush (rest : Bytes) : Maintains (Transport.Amid · max heading rest later) Transport.flush :=
    Transport.maintains_amid_dispatch Enveloped.maintains_amid_flush
  have hwrite (bytes rest : Bytes) : Maintains (Transport.Amid · max heading rest later) (Transport.write bytes) :=
    Transport.maintains_amid_dispatch (.modify fun _ h => ⟨h.maxSize, h.heading, h.payload, h.unread⟩)
  refine .get fun channel _ => .ite ?_ (hon hflush)
  exact Maintains.bind (.modify fun _ h => h) fun _ => (hon (hwrite _)).bind fun _ => hon hflush

end

def Enveloped.parting (head : EnvelopeHead) (payload : Bytes) : Bytes :=
  if payload = [] then [] else encode head payload

private theorem Enveloped.written_flush {layer after : Enveloped} (h : flush layer = .ok () after) :
    after.stream.written = layer.stream.written ++ parting layer.head layer.pending := by
  by_cases hpending : layer.pending = []
  · rw [flush, if_pos hpending] at h
    cases h
    rw [parting, if_pos hpending, List.append_nil]
  · obtain ⟨-, -, rfl⟩ := (flush_okIff hpending).eq_of_ok h
    rw [parting, if_neg hpending]
    rfl

def Channel.unsent (channel : Channel) : Bytes := channel.transport.withheld ++ channel.pending

/-- A flush sends all that waits as one envelope, with the head that the layer has by then. -/
theorem Channel.written_flush {channel after : Channel} {layer : Enveloped} (hlayer : channel.transport = .header layer)
    (h : flush channel = .ok () after) : after.transport.stream.written =
      channel.transport.stream.written ++ Enveloped.parting layer.head channel.unsent := by
  have hflush : flush channel = onTransport Transport.flush { channel with
      pending := [], transport := .header { layer with pending := layer.pending ++ channel.pending } } := by
    by_cases hpending : channel.pending = []
    · have hsame : ({ channel with
          pending := [], transport := .header { layer with pending := layer.pending ++ channel.pending } } : Channel) =
          channel := by
        rw [hpending, List.append_nil, ← hlayer, ← hpending]
      rw [hsame, flush, bind_of_ok (get_ok channel), if_neg (not_not_intro hpending)]
    · have hwrite : Transport.write channel.pending (.header layer) =
          .ok () (.header { layer with pending := layer.pending ++ channel.pending }) := rfl
      rw [flush_eq hpending]
      simp only [onTransport, onPart, hlayer, bind_of_ok hwrite]
  rw [hflush] at h
  simp only [onTransport, onPart, Transport.flush, Transport.dispatch] at h
  cases hr : Enveloped.flush { layer with pending := layer.pending ++ channel.pending } with
  | error err last => rw [hr] at h; cases h
  | ok value last =>
    rw [hr] at h
    cases h
    rw [unsent, hlayer]
    exact Enveloped.written_flush hr

end RpcWire
