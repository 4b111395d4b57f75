import RpcWire.Proofs.EnvelopeHead
import RpcWire.Proofs.Supply

/-! How messages stand on a stream: bare, in frames or in envelopes. What one flush sends, a reader that is between
two messages finds, and it finds nothing else. -/
namespace RpcWire

/-- How one message stands on a stream. An envelope has a head of its own. -/
inductive Wrapping where
  | bare
  | frame
  | envelope (head : EnvelopeHead)
  deriving DecidableEq

def Enveloped.encode (head : EnvelopeHead) (payload : Bytes) : Bytes :=
  Bytes.bigEndian 4 (EnvelopeHead.fixedSize + head.encodeBlock.length + payload.length) ++
    (head.encodeFixed (head.encodeBlock.length / 4) ++ (head.encodeBlock ++ payload))

namespace Wrapping

def wrap : Wrapping → Bytes → Bytes
  | .bare, payload => payload
  | .frame, payload => Framed.encode payload
  | .envelope head, payload => Enveloped.encode head payload

/-- Whether a layer of some kind sends and takes a payload in this way. -/
def Fits (payload : Bytes) : Wrapping → TransportKind → UInt32 → Prop
  | .bare, .raw, _ => True
  | .frame, .framed, max => payload.length ≤ max.toNat
  | .envelope head, .header, max =>
    head.Fits ∧ EnvelopeHead.fixedSize + head.encodeBlock.length + payload.length ≤ max.toNat
  | _, _, _ => False

/-- Whether a layer of some kind takes in a payload that comes in this way. Frames may end anywhere in it. -/
def Comes (payload : Bytes) : Wrapping → TransportKind → UInt32 → Prop
  | .bare, .raw, _ => True
  | .frame, .framed, _ => True
  | .envelope head, .header, max =>
    head.Fits ∧ EnvelopeHead.fixedSize + head.encodeBlock.length + payload.length ≤ max.toNat
  | _, _, _ => False

theorem Fits.comes {wrapping : Wrapping} {payload : Bytes} {kind : TransportKind} {max : UInt32}
    (h : wrapping.Fits payload kind max) : wrapping.Comes payload kind max := by
  cases wrapping <;> cases kind <;> trivial

theorem Comes.of_max {wrapping : Wrapping} {payload : Bytes} {kind : TransportKind} {max max' : UInt32}
    (h : wrapping.Comes payload kind max) (hmax : kind = .raw ∨ max' = max) : wrapping.Comes payload kind max' := by
  rcases hmax with rfl | rfl
  · cases wrapping <;> exact h
  · exact h

theorem Fits.of_max {wrapping : Wrapping} {payload : Bytes} {kind : TransportKind} {max max' : UInt32}
    (h : wrapping.Fits payload kind max) (hmax : kind = .raw ∨ max' = max) : wrapping.Fits payload kind max' := by
  rcases hmax with rfl | rfl
  · cases wrapping <;> exact h
  · exact h

def tell : Wrapping → Transport → Transport
  | .envelope head => Transport.mapHead head.taking
  | _ => id

end Wrapping

namespace Transport

def maxSize : Transport → UInt32
  | .raw _ => 0
  | .framed layer => layer.maxSize
  | .header layer => layer.maxSize

/-- What fits a transport is sent in the way of its layer. -/
theorem cases_of_fits {wrapping : Wrapping} {payload : Bytes} {transport : Transport}
    (h : wrapping.Fits payload transport.kind transport.maxSize) :
    (∃ stream, transport = .raw stream ∧ wrapping = .bare) ∨
      (∃ layer, transport = .framed layer ∧ wrapping = .frame ∧ payload.length ≤ layer.maxSize.toNat) ∨
      ∃ layer head, transport = .header layer ∧ wrapping = .envelope head ∧
        EnvelopeHead.fixedSize + head.encodeBlock.length + payload.length ≤ layer.maxSize.toNat := by
  cases transport with
  | raw stream =>
    cases wrapping with
    | bare => exact .inl ⟨stream, rfl, rfl⟩
    | frame | envelope head => exact h.elim
  | framed layer =>
    cases wrapping with
    | frame => exact .inr (.inl ⟨layer, rfl, rfl, h⟩)
    | bare | envelope head => exact h.elim
  | header layer =>
    cases wrapping with
    | envelope head => exact .inr (.inr ⟨layer, head, rfl, rfl, h.2⟩)
    | bare | frame => exact h.elim

def wrapping : Transport → Wrapping
  | .raw _ => .bare
  | .framed _ => .frame
  | .header layer => .envelope layer.head

def withheld : Transport → Bytes
  | .raw _ => []
  | .framed layer => layer.pending
  | .header layer => layer.pending

@[simp] theorem withheld_holding (current later : Bytes) (transport : Transport) :
    (transport.holding current later).withheld = transport.withheld := by
  cases transport <;> rfl

@[simp] theorem kind_ofStream (kind : TransportKind) (stream : Stream) (max : UInt32) :
    (ofStream kind stream max).kind = kind := by
  cases kind <;> rfl

@[simp] theorem stream_ofStream (kind : TransportKind) (stream : Stream) (max : UInt32) :
    (ofStream kind stream max).stream = stream := by
  cases kind <;> rfl

theorem maxSize_ofStream (kind : TransportKind) (stream : Stream) (max : UInt32) :
    kind = .raw ∨ (ofStream kind stream max).maxSize = max := by
  cases kind with
  | raw => exact .inl rfl
  | framed => exact .inr rfl
  | header => exact .inr rfl

end Transport

namespace Wrapping

@[simp] theorem kind_tell (wrapping : Wrapping) (transport : Transport) :
    (wrapping.tell transport).kind = transport.kind := by
  cases wrapping <;> cases transport <;> rfl

@[simp] theorem maxSize_tell (wrapping : Wrapping) (transport : Transport) :
    (wrapping.tell transport).maxSize = transport.maxSize := by
  cases wrapping <;> cases transport <;> rfl

@[simp] theorem stream_tell (wrapping : Wrapping) (transport : Transport) :
    (wrapping.tell transport).stream = transport.stream := by
  cases wrapping <;> cases transport <;> rfl

theorem length_le_wrap (wrapping : Wrapping) (payload : Bytes) : payload.length ≤ (wrapping.wrap payload).length := by
  cases wrapping with
  | bare => exact Nat.le_refl _
  | frame =>
    simp only [wrap, Framed.encode, List.length_append]
    omega
  | envelope head =>
    simp only [wrap, Enveloped.encode, List.length_append]
    omega

/-- A layer takes whatever is not too long for it. -/
theorem Fits.of_length {wrapping : Wrapping} {payload : Bytes} {kind : TransportKind} {max max' : UInt32}
    (h : wrapping.Fits payload kind max)
    (hlen : kind = .raw ∨ (wrapping.wrap payload).length ≤ max'.toNat + 4) : wrapping.Fits payload kind max' := by
  cases wrapping <;> cases kind <;> try exact h.elim
  · trivial
  · have hle := hlen.resolve_left (by decide)
    simp only [wrap, Framed.encode, List.length_append, Bytes.length_bigEndian] at hle
    simp only [Fits]
    omega
  · have hle := hlen.resolve_left (by decide)
    simp only [wrap, Enveloped.encode, List.length_append, Bytes.length_bigEndian,
      EnvelopeHead.length_encodeFixed] at hle
    exact ⟨h.1, by omega⟩

end Wrapping

/-- An envelope that is there is loaded. -/
theorem Enveloped.load_front {sent : EnvelopeHead} {payload later : Bytes} {layer : Enveloped}
    (h : layer.stream.unread =
      (sent.encodeFixed (sent.encodeBlock.length / 4) ++ (sent.encodeBlock ++ payload)) ++ later)
    (hfits : sent.Fits)
    (hle : EnvelopeHead.fixedSize + sent.encodeBlock.length + payload.length ≤ layer.maxSize.toNat) :
    load (UInt32.ofNat (EnvelopeHead.fixedSize + sent.encodeBlock.length + payload.length)) layer =
      .ok () { layer with
        stream := { layer.stream with unread := later }, payload, head := sent.taking layer.head } := by
  have hword := UInt32.toNat_ofNat_of_lt' (Nat.lt_of_le_of_lt hle layer.maxSize.toNat_lt)
  have hframe : (sent.encodeFixed (sent.encodeBlock.length / 4) ++ (sent.encodeBlock ++ payload)).length =
      EnvelopeHead.fixedSize + sent.encodeBlock.length + payload.length := by
    simp only [List.length_append, EnvelopeHead.length_encodeFixed, Nat.add_assoc]
  have hsmall : ¬layer.maxSize <
      UInt32.ofNat (EnvelopeHead.fixedSize + sent.encodeBlock.length + payload.length) := by
    rw [UInt32.lt_iff_toNat_lt, hword]
    omega
  have hfixed : ¬EnvelopeHead.fixedSize + sent.encodeBlock.length + payload.length < EnvelopeHead.fixedSize := by
    omega
  have hfull : Stream.readFull (EnvelopeHead.fixedSize + sent.encodeBlock.length + payload.length) layer.stream = _ :=
    Stream.readFull_front (by rw [h, List.length_append, hframe]; omega)
  rw [h, List.take_left' hframe, List.drop_left' hframe] at hfull
  rw [load, if_neg hsmall, hword, if_neg hfixed, hfull]
  simp only [hframe, Nat.lt_irrefl, if_false, EnvelopeHead.accept_encode hfits]

/-- Between envelopes, the next one is loaded, be it empty. -/
theorem Enveloped.await_envelope {sent : EnvelopeHead} {payload later : Bytes} {layer : Enveloped}
    (hpayload : layer.payload = []) (h : layer.stream.unread = encode sent payload ++ later) (hfits : sent.Fits)
    (hle : EnvelopeHead.fixedSize + sent.encodeBlock.length + payload.length ≤ layer.maxSize.toNat) :
    await layer = await { layer with
      stream := { layer.stream with unread := later }, payload, head := sent.taking layer.head } := by
  rw [encode, List.append_assoc] at h
  have hread := Stream.readLength_front (Nat.lt_of_le_of_lt hle layer.maxSize.toNat_lt) h
  have hload : load _ { layer with stream := { layer.stream with
      unread := (sent.encodeFixed (sent.encodeBlock.length / 4) ++ (sent.encodeBlock ++ payload)) ++ later } } = _ :=
    load_front rfl hfits hle
  conv => lhs; rw [await]
  rw [if_neg (by simpa using hpayload)]
  split
  · next he => rw [hread] at he; cases he
  · next he => rw [hread] at he; cases he
  · next he =>
    rw [hread] at he
    cases he
    split
    · next he => rw [hload] at he; cases he
    · next he =>
      rw [hload] at he
      cases he
      rfl

/-- Between envelopes, the next one is entered if it has octets. -/
theorem Enveloped.await_front {sent : EnvelopeHead} {payload later : Bytes} {layer : Enveloped}
    (hpayload : layer.payload = []) (h : layer.stream.unread = encode sent payload ++ later) (hne : payload ≠ [])
    (hfits : sent.Fits)
    (hle : EnvelopeHead.fixedSize + sent.encodeBlock.length + payload.length ≤ layer.maxSize.toNat) :
    await layer = .ok true { layer with
      stream := { layer.stream with unread := later }, payload, head := sent.taking layer.head } := by
  rw [await_envelope hpayload h hfits hle, await, if_pos hne]

/-- Between envelopes, the end of the stream is a clean one. -/
theorem Enveloped.read_end {n : Nat} (hn : n ≠ 0) {layer : Enveloped} (hpayload : layer.payload = [])
    (h : layer.stream.unread = []) (hend : layer.stream.ending = none) : read n layer = .ok [] layer := by
  have hawait : await layer = .ok false layer := by
    rw [await, if_neg (by simpa using hpayload)]
    split
    · next he => rw [Stream.readLength_end h hend] at he; cases he
    · next he => rw [Stream.readLength_end h hend] at he; cases he; rfl
    · next he => rw [Stream.readLength_end h hend] at he; cases he
  rw [read, if_neg hn, bind_of_ok hawait]
  rfl

/-- Layers that move on alike read alike. -/
theorem Enveloped.read_congr {n : Nat} (hn : n ≠ 0) {layer layer' : Enveloped} (h : await layer = await layer') :
    read n layer = read n layer' := by
  rw [read, if_neg hn]
  exact bind_eq_of_eq h

/-- A read between envelopes is a read of the envelope that is entered. -/
theorem Enveloped.read_of_await {n : Nat} (hn : n ≠ 0) {layer entered : Enveloped} (h : await layer = .ok true entered)
    (hmore : entered.payload ≠ []) : read n layer = read n entered := by
  have hsame : await entered = .ok true entered := by rw [await, if_pos hmore]
  exact read_congr hn (h.trans hsame.symm)

/-- Where only empty frames follow, a read finds the end of the stream. -/
theorem Transport.read_end {n : Nat} (hn : n ≠ 0) {frames : List Bytes} {base : Transport}
    (hcarries : base.Carries frames) (hnone : frames.flatten = []) (hend : base.stream.ending = none) :
    read n (base.holding [] (frames.flatMap Framed.encode)) = .ok [] (base.holding [] []) := by
  cases base with
  | raw stream =>
    obtain rfl : frames = [] := hcarries
    have hr : Stream.read n { stream with unread := [] } = _ := Stream.read_end rfl hend
    simp only [holding, List.flatMap_nil, List.append_nil, read, dispatch, onPart, hr]
  | framed layer =>
    have hr : Framed.read n { layer with
        stream := { layer.stream with unread := frames.flatMap Framed.encode }, remaining := 0 } = _ :=
      Framed.read_end hn rfl rfl hnone hend
    simp only [holding, List.nil_append, List.length_nil, read, dispatch, onPart, hr]
  | header layer =>
    obtain rfl : frames = [] := hcarries
    have hr : Enveloped.read n { layer with stream := { layer.stream with unread := [] }, payload := [] } = _ :=
      Enveloped.read_end hn rfl rfl hend
    simp only [holding, List.flatMap_nil, read, dispatch, onPart, hr]

namespace Channel

/-- Octets are read ahead alike over transports that deliver alike. -/
theorem fill_of_read {n : Nat} {channel : Channel} {transport : Transport}
    (h : Transport.read readSize channel.transport = Transport.read readSize transport)
    (hn : channel.readAhead.length < n) : fill n channel = fill n { channel with transport } := by
  rw [fill, if_neg (Nat.not_le.mpr hn), h, fill, if_neg (Nat.not_le.mpr hn)]

/-- Between envelopes, reading ahead enters the next one, be it empty. -/
theorem Holds.enter {channel base : Channel} {head : EnvelopeHead} {payload later : Bytes}
    (h : channel.Holds base [] (Enveloped.encode head payload ++ later))
    (hcomes : (Wrapping.envelope head).Comes payload base.transport.kind base.transport.maxSize) :
    ∃ entered : Channel, (∀ n, 0 < n → Channel.fill n channel = Channel.fill n entered) ∧
      entered.Holds { base with transport := (Wrapping.envelope head).tell base.transport } payload later := by
  obtain ⟨front, frames, hs, hnone, hcarries⟩ := h
  obtain ⟨rfl, -⟩ := List.append_eq_nil_iff.mp hnone
  cases hb : base.transport with
  | raw stream => rw [hb] at hcomes; exact hcomes.elim
  | framed layer => rw [hb] at hcomes; exact hcomes.elim
  | header layer =>
    have hframes : frames = [] := hcarries.eq_nil (by rw [hb]; exact nofun)
    subst hframes
    have ht : channel.transport.putBack channel.readAhead =
        base.transport.holding [] (Enveloped.encode head payload ++ later) := congrArg Channel.transport hs
    have hp : channel.settled.pending = (base.holding [] (Enveloped.encode head payload ++ later)).pending :=
      congrArg Channel.pending hs
    rw [hb] at ht hcomes
    cases hc : channel.transport with
    | raw stream' => rw [hc] at ht; cases ht
    | framed layer' => rw [hc] at ht; cases ht
    | header layer' =>
      rw [hc] at ht
      simp only [Transport.putBack, Transport.holding, Transport.header.injEq, Enveloped.mk.injEq,
        List.append_eq_nil_iff] at ht
      obtain ⟨hstream, hmax, hhead, ⟨hahead, hpayload⟩, hpending⟩ := ht
      have hawait := Enveloped.await_envelope hpayload (by rw [hstream]) hcomes.1 (by rw [hmax]; exact hcomes.2)
      refine ⟨{ channel with transport := .header { layer' with
        stream := { layer'.stream with unread := later }, payload, head := head.taking layer'.head } }, ?_,
        .of_settled ?_⟩
      · intro n hn
        refine fill_of_read ?_ (by rw [hahead]; exact hn)
        simp only [Transport.read, Transport.dispatch, onPart, hc,
          Enveloped.read_congr (by decide : readSize ≠ 0) hawait]
      · simp only [settled, holding, Transport.putBack, Transport.holding, hahead, Wrapping.tell, Transport.mapHead,
          List.nil_append, hstream, hmax, hpending, hhead]
        exact congrArg (Channel.mk _ [] · none) hp

/-- A message is what the channel delivers next, and after it come `current` and `later`. -/
def Faces (channel base : Channel) (wrapping : Wrapping) (payload current later : Bytes) : Prop :=
  match wrapping with
  | .envelope head => current = [] ∧ channel.Holds base [] (Enveloped.encode head payload ++ later)
  | _ => channel.Holds base (payload ++ current) later

/-- Reading ahead enters the next message. -/
theorem Faces.enter {channel base : Channel} {wrapping : Wrapping} {payload current later : Bytes}
    (h : channel.Faces base wrapping payload current later)
    (hcomes : wrapping.Comes payload base.transport.kind base.transport.maxSize) :
    ∃ entered : Channel, (∀ n, 0 < n → Channel.fill n channel = Channel.fill n entered) ∧
      entered.Holds { base with transport := wrapping.tell base.transport } (payload ++ current) later := by
  cases wrapping with
  | envelope head =>
    obtain ⟨rfl, hholds⟩ := h
    rw [List.append_nil]
    exact hholds.enter hcomes
  | bare => exact ⟨channel, fun _ _ => rfl, h⟩
  | frame => exact ⟨channel, fun _ _ => rfl, h⟩

/-- At the end of the stream, reading ahead fails, and nothing is left. -/
theorem Holds.fill_end {channel base : Channel} (h : channel.Holds base [] [])
    (hend : base.transport.stream.ending = none) :
    ∃ after : Channel, (∀ n, 0 < n → Channel.fill n channel = .error .streamClosed after) ∧
      after.settled = base.holding [] [] := by
  obtain ⟨front, frames, hs, hnone, hcarries⟩ := h
  obtain ⟨rfl, hframes⟩ := List.append_eq_nil_iff.mp hnone
  rw [List.append_nil] at hs
  have hahead : channel.readAhead = [] := by
    rcases readAhead_of_settled hs with hle | hraw
    · exact List.length_eq_zero_iff.mp (Nat.le_zero.mp hle)
    · have havailable := available_of_settled hs
      rw [hcarries.eq_nil (by rw [hraw]; exact nofun), available] at havailable
      exact List.length_eq_zero_iff.mp (Nat.add_eq_zero_iff.mp havailable).1
  have ht : channel.transport.putBack channel.readAhead =
      base.transport.holding [] (frames.flatMap Framed.encode) := congrArg Channel.transport hs
  have hp : channel.settled.pending = (base.holding [] (frames.flatMap Framed.encode)).pending :=
    congrArg Channel.pending hs
  rw [hahead, Transport.putBack_nil] at ht
  have hread := Transport.read_end (by decide : readSize ≠ 0) hcarries hframes hend
  rw [← ht] at hread
  refine ⟨{ channel with transport := base.transport.holding [] [] }, fun n hn => ?_, ?_⟩
  · rw [Channel.fill, if_neg (by rw [hahead]; exact Nat.not_le.mpr hn), hread]
  · rw [settled, hahead, Transport.putBack_nil]
    exact congrArg (Channel.mk _ [] · none) hp

end Channel
end RpcWire
