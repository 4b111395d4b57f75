import RpcWire.Proofs.Tracking.Channels

/-! Input that ends inside a message, beside the same input if the message went on: a channel delivers the same from
both until it meets the end of the stream. -/
namespace RpcWire

namespace Transport

def lengthen (tail : Bytes) (transport : Transport) : Transport :=
  transport.withStream (transport.stream.push tail)

private theorem lengthen_putBack (tail bytes : Bytes) (transport : Transport) :
    (transport.lengthen tail).putBack bytes = (transport.putBack bytes).lengthen tail := by
  cases transport <;> simp [lengthen, putBack, withStream, stream, Stream.push]

@[simp] theorem kind_lengthen (tail : Bytes) (transport : Transport) :
    (transport.lengthen tail).kind = transport.kind := by
  cases transport <;> rfl

/-- Whether so many octets after those of the stream would belong to the frame that the transport is in. A bare stream
has no frames; an envelope that is not all there cannot be entered. -/
def Lacks (count : Nat) : Transport → Prop
  | .raw _ => True
  | .framed layer => layer.stream.unread.length + count ≤ layer.remaining
  | .header _ => False

private theorem lacks_putBack (count : Nat) (bytes : Bytes) (transport : Transport) :
    (transport.putBack bytes).Lacks count ↔ transport.Lacks count := by
  cases transport with
  | raw stream => exact Iff.rfl
  | framed layer =>
    simp only [putBack, Lacks, List.length_append]
    omega
  | header layer => exact Iff.rfl

/-- A transport whose stream ends, and the same one if the stream went on with `tail`. -/
structure Cut (tail : Bytes) (n : Nat) (transport transport' : Transport) : Prop where
  longer : transport' = transport.lengthen tail
  ending : transport.stream.ending = none
  lacks : transport.Lacks tail.length
  less : transport.available < n

namespace Cut
variable {tail : Bytes} {n : Nat} {transport transport' : Transport}

private theorem putBack_iff (bytes : Bytes) : Cut tail n (transport.putBack bytes) (transport'.putBack bytes) ↔
    Cut tail (n - bytes.length) transport transport' := by
  have hlonger : transport'.putBack bytes = (transport.putBack bytes).lengthen tail ↔
      transport' = transport.lengthen tail := by
    rw [← lengthen_putBack]
    exact (putBack_injective bytes).eq_iff
  have hending : (transport.putBack bytes).stream.ending = transport.stream.ending := by
    cases transport <;> rfl
  have hless : (transport.putBack bytes).available < n ↔ transport.available < n - bytes.length := by
    rw [available_putBack]
    omega
  constructor
  · exact fun h => ⟨hlonger.mp h.longer, hending ▸ h.ending, (lacks_putBack _ _ _).mp h.lacks, hless.mp h.less⟩
  · exact fun h => ⟨hlonger.mpr h.longer, hending ▸ h.ending, (lacks_putBack _ _ _).mpr h.lacks, hless.mpr h.less⟩

/-- Octets that are left come first of all. -/
theorem exists_putBack (h : Cut tail n transport transport') (hmore : transport.stream.unread ≠ []) :
    ∃ (first : UInt8) (rest : Transport), transport = rest.putBack [first] := by
  obtain ⟨first, more, hunread⟩ := List.exists_cons_of_ne_nil hmore
  refine ⟨first, ?_⟩
  cases transport with
  | raw stream =>
    refine ⟨.raw { stream with unread := more }, ?_⟩
    simp only [Transport.stream] at hunread
    simp only [putBack, List.singleton_append, ← hunread]
  | framed layer =>
    refine ⟨.framed { layer with stream := { layer.stream with unread := more }, remaining := layer.remaining - 1 }, ?_⟩
    have hlacks : layer.stream.unread.length + tail.length ≤ layer.remaining := h.lacks
    simp only [Transport.stream] at hunread
    have hremaining : 1 + (layer.remaining - 1) = layer.remaining := by
      rw [hunread, List.length_cons] at hlacks
      omega
    simp only [putBack, List.singleton_append, ← hunread, List.length_singleton, hremaining]
  | header layer => exact h.lacks.elim

/-- With nothing left, the next octet is missing. -/
theorem pull_end (h : Cut tail n transport transport') (htail : tail ≠ []) (hnone : transport.stream.unread = []) :
    ∃ err after, pull transport = .error err after ∧ err.isEof = true := by
  have hending := h.ending
  cases transport with
  | raw stream =>
    simp only [Transport.stream] at hnone hending
    refine ⟨.streamClosed, .raw stream, ?_, rfl⟩
    simp only [pull_eq, read, dispatch, onPart, Stream.read_nil 1 hnone, hending]
  | framed layer =>
    simp only [Transport.stream] at hnone hending
    have hlacks : layer.stream.unread.length + tail.length ≤ layer.remaining := h.lacks
    have hinside : layer.remaining ≠ 0 := by
      have := List.length_pos_iff.mpr htail
      omega
    refine ⟨.closedInFrame, .framed layer, ?_, rfl⟩
    simp only [pull_eq, read, dispatch, onPart, Framed.read_eq Nat.zero_lt_one, Framed.await_inside hinside,
      Stream.read_nil _ hnone, hending]
  | header layer => exact h.lacks.elim

end Cut

def cut (tail : Bytes) (htail : tail ≠ []) : Transport.Pairing where
  near := Cut tail
  stop err := err.isEof = true
  widen hle h := ⟨h.longer, h.ending, h.lacks, Nat.lt_of_lt_of_le h.less hle⟩
  kind := by
    rintro _ transport _ ⟨rfl, -, -, -⟩
    cases transport <;> rfl
  head? := by
    rintro _ transport _ ⟨rfl, -, -, -⟩
    cases transport <;> rfl
  available := by
    rintro _ transport _ ⟨rfl, -, -, -⟩
    refine .inr ⟨rfl, ?_⟩
    cases transport <;> simp [lengthen, available, withStream, stream, Stream.push]
  putBack := Cut.putBack_iff
  pull n transport transport' h := by
    by_cases hnone : transport.stream.unread = []
    · obtain ⟨err, after, hpull, heof⟩ := h.pull_end htail hnone
      rw [hpull]
      exact .stopped heof
    · obtain ⟨first, rest, rfl⟩ := h.exists_putBack hnone
      have hlonger := h.longer
      rw [← lengthen_putBack] at hlonger
      subst hlonger
      rw [pull_putBack, pull_putBack, putBack_nil, putBack_nil]
      exact .ok ((Cut.putBack_iff [first]).mp h)

end Transport

/-! ## Input that ends before a frame or an envelope is entered -/

namespace Stream

/-- Where the stream ends, what is left of it comes and no more. -/
theorem readFull_end {n : Nat} {stream : Stream} (h : stream.unread.length < n) (hend : stream.ending = none) :
    readFull n stream = .ok stream.unread { stream with unread := [] } := by
  obtain ⟨unread, written, chunk, ending, limit⟩ := stream
  obtain rfl : ending = none := hend
  exact readFull_short h

private theorem readLength_short {stream : Stream} (h : stream.unread.length < 4)
    (hend : stream.ending = none) :
    readLength stream = if stream.unread = [] then .ok none { stream with unread := [] }
      else .error .truncatedLength { stream with unread := [] } := by
  rw [readLength, bind_of_ok (readFull_end h hend)]
  by_cases hnone : stream.unread = []
  · rw [if_pos hnone, if_pos hnone]
    rfl
  · rw [if_neg hnone, if_neg hnone, if_pos h]
    rfl

end Stream

/-- An envelope that is not all there is not loaded. -/
theorem Enveloped.load_end {size : Nat} {layer : Enveloped} (hshort : layer.stream.unread.length < size)
    (hfixed : EnvelopeHead.fixedSize ≤ size) (hle : size ≤ layer.maxSize.toNat) (hend : layer.stream.ending = none) :
    load (UInt32.ofNat size) layer = .error .envelopeCutShort { layer with
      stream := { layer.stream with unread := [] } } := by
  have hword := UInt32.toNat_ofNat_of_lt' (Nat.lt_of_le_of_lt hle layer.maxSize.toNat_lt)
  have hsmall : ¬layer.maxSize < UInt32.ofNat size := by
    rw [UInt32.lt_iff_toNat_lt, hword]
    omega
  rw [load, if_neg hsmall, hword, if_neg (Nat.not_lt.mpr hfixed), Stream.readFull_end hshort hend]
  exact if_pos hshort

/-- Octets in front of a cut are all of those in front, or fewer. -/
theorem Bytes.split_front {front rest start tail : Bytes} (h : front ++ rest = start ++ tail) :
    start.length < front.length ∨ ∃ more, start = front ++ more ∧ rest = more ++ tail := by
  rcases List.append_eq_append_iff.mp h with ⟨more, hstart, hrest⟩ | ⟨more, hfront, -⟩
  · exact .inr ⟨more, hstart, hrest⟩
  · by_cases hmore : more = []
    · subst hmore
      rw [List.append_nil] at hfront
      subst hfront
      exact .inr ⟨[], (List.append_nil _).symm, List.append_cancel_left h⟩
    · left
      have := List.length_pos_iff.mpr hmore
      rw [hfront, List.length_append]
      omega

namespace Transport

private theorem pull_framed_of_await {layer layer' : Framed} (h : Framed.await layer = Framed.await layer') :
    pull (.framed layer) = pull (.framed layer') := by
  simp only [pull_eq, read, dispatch, onPart, Framed.read_eq Nat.zero_lt_one, h]

/-- Not even the length of the next frame is there. -/
theorem pull_framed_end {layer : Framed} (hremaining : layer.remaining = 0) (h : layer.stream.unread.length < 4)
    (hend : layer.stream.ending = none) :
    ∃ err after, pull (.framed layer) = .error err after ∧ err.isEof = true := by
  simp only [pull_eq, read, dispatch, onPart, Framed.read_eq Nat.zero_lt_one, Framed.await_eq layer,
    if_neg (not_not_intro hremaining), Stream.readLength_short h hend]
  by_cases hnone : layer.stream.unread = []
  · simp only [if_pos hnone]
    exact ⟨_, _, rfl, rfl⟩
  · simp only [if_neg hnone]
    exact ⟨_, _, rfl, rfl⟩

/-- Not all of the next envelope is there. -/
theorem pull_header_end {head : EnvelopeHead} {payload start tail : Bytes} {layer : Enveloped}
    (hpayload : layer.payload = []) (h : layer.stream.unread = start)
    (hsplit : Enveloped.encode head payload = start ++ tail) (htail : tail ≠ [])
    (hle : EnvelopeHead.fixedSize + head.encodeBlock.length + payload.length ≤ layer.maxSize.toNat)
    (hend : layer.stream.ending = none) :
    ∃ err after, pull (.header layer) = .error err after ∧ err.isEof = true := by
  rw [Enveloped.encode] at hsplit
  have hbetween : ¬layer.payload ≠ [] := not_not_intro hpayload
  suffices hawait : ∃ entered, Enveloped.await layer = .ok false entered ∨
      ∃ err, err.isEof = true ∧ Enveloped.await layer = .error err entered by
    obtain ⟨entered, hawait | ⟨err, heof, hawait⟩⟩ := hawait
    · exact ⟨.streamClosed, .header entered, by
        simp only [pull_eq, read, dispatch, onPart, Enveloped.read_eq Nat.zero_lt_one, hawait], rfl⟩
    · exact ⟨err, .header entered, by
        simp only [pull_eq, read, dispatch, onPart, Enveloped.read_eq Nat.zero_lt_one, hawait], heof⟩
  rcases Bytes.split_front hsplit with hshort | ⟨rest, rfl, hrest⟩
  · rw [Bytes.length_bigEndian, ← h] at hshort
    rw [Enveloped.await_eq, if_neg hbetween, Stream.readLength_short hshort hend]
    by_cases hnone : layer.stream.unread = []
    · rw [if_pos hnone]
      exact ⟨_, .inl rfl⟩
    · rw [if_neg hnone]
      exact ⟨_, .inr ⟨_, rfl, rfl⟩⟩
  · have hless : rest.length < EnvelopeHead.fixedSize + head.encodeBlock.length + payload.length := by
      have hlen := congrArg List.length hrest
      simp only [List.length_append, EnvelopeHead.length_encodeFixed] at hlen
      have := List.length_pos_iff.mpr htail
      omega
    have hload := @Enveloped.load_end _ { layer with stream := { layer.stream with unread := rest } } hless (by omega)
      hle hend
    rw [Enveloped.await_eq, if_neg hbetween,
      Stream.readLength_front (Nat.lt_of_le_of_lt hle layer.maxSize.toNat_lt) h]
    simp only [hload]
    exact ⟨_, .inr ⟨_, rfl, rfl⟩⟩

end Transport

namespace Channel

private theorem fill_of_pull_error {n : Nat} {channel : Channel} {after : Transport} {err : WireError}
    (hahead : channel.readAhead = []) (hpull : Transport.pull channel.transport = .error err after) (hn : 0 < n) :
    fill n channel = .error err { channel with transport := after } := by
  rw [Transport.pull_of_read (by decide : 0 < readSize)] at hpull
  rw [fill, if_neg (by rw [hahead]; exact Nat.not_le.mpr hn)]
  cases hread : Transport.read readSize channel.transport with
  | error err after =>
    rw [hread] at hpull
    cases hpull
    rfl
  | ok bytes after =>
    rw [hread] at hpull
    cases bytes with
    | nil =>
      cases hpull
      rfl
    | cons first more => cases hpull

/-- What a channel between two messages can deliver is on its stream, behind some empty frames. -/
theorem Holds.source_eq {channel base : Channel} {later : Bytes} (h : channel.Holds base [] later) :
    ∃ frames : List Bytes, channel.source = base.transport.holding [] (frames.flatMap Framed.encode ++ later) ∧
      frames.flatten = [] ∧ base.transport.Carries frames ∧ channel.pending = base.pending ∧
      (base.transport.kind = .raw ∨ channel.readAhead = []) := by
  obtain ⟨front, frames, hs, hnone, hcarries⟩ := h
  obtain ⟨rfl, hframes⟩ := List.append_eq_nil_iff.mp hnone
  have hpending : channel.settled.pending = (base.holding [] _).pending := congrArg Channel.pending hs
  refine ⟨frames, congrArg Channel.transport hs, hframes, hcarries, hpending, ?_⟩
  rcases readAhead_of_settled hs with hle | hraw
  · exact .inr (List.length_eq_zero_iff.mp (Nat.le_zero.mp hle))
  · exact .inl hraw

theorem Holds.of_source {channel base : Channel} {current later : Bytes}
    (h : channel.source = base.transport.holding current later) (hpending : channel.pending = base.pending) :
    channel.Holds base current later := by
  refine .of_settled ?_
  rw [settled, holding, ← h, ← hpending]
  rfl

theorem source_lengthen (tail : Bytes) (channel : Channel) :
    { channel with transport := channel.transport.lengthen tail }.source = channel.source.lengthen tail :=
  Transport.lengthen_putBack tail channel.readAhead channel.transport

/-- A channel that is in the message that it delivers next, as far as there is something of it. The message would be
whole if `tail` came after it. -/
structure InFront (base : Channel) (payload tail : Bytes) (channel : Channel) : Prop where
  kind : base.transport.kind ≠ .header
  ending : channel.source.stream.ending = none
  lacks : channel.source.Lacks tail.length
  whole : { channel with transport := channel.transport.lengthen tail }.Holds base payload []

/-- On a bare stream, what is there of a message comes next. -/
theorem Holds.inFront_raw {channel base : Channel} {start tail : Bytes} (h : channel.Holds base [] start)
    {stream : Stream} (hb : base.transport = .raw stream) (hend : stream.ending = none) :
    InFront base (start ++ tail) tail channel := by
  obtain ⟨frames, hsource, -, hcarries, hpending, -⟩ := h.source_eq
  obtain rfl : frames = [] := hcarries.eq_nil (by rw [hb]; rintro ⟨⟩)
  rw [hb] at hsource
  refine ⟨by rw [hb]; rintro ⟨⟩, by rw [hsource]; exact hend, by rw [hsource]; trivial, .of_source ?_ hpending⟩
  rw [source_lengthen, hsource, hb]
  simp only [Transport.holding, Transport.lengthen, Transport.withStream, Transport.stream, Stream.push,
    List.flatMap_nil, List.nil_append, List.append_nil]

/-- Of a frame that is cut short, not even the length is there, or reading ahead enters it. -/
theorem Holds.ends_or_enters_framed {channel base : Channel} {payload start tail : Bytes}
    (h : channel.Holds base [] start) {layer : Framed} (hb : base.transport = .framed layer)
    (hsplit : Framed.encode payload = start ++ tail) (hne : payload ≠ [])
    (hle : payload.length ≤ layer.maxSize.toNat) (hend : layer.stream.ending = none) :
    (∃ err after, err.isEof = true ∧ ∀ n, 0 < n → Channel.fill n channel = .error err after) ∨
      ∃ entered, InFront base payload tail entered ∧ ∀ n, 0 < n → Channel.fill n channel = Channel.fill n entered := by
  obtain ⟨frames, hsource, hframes, -, hpending, hahead⟩ := h.source_eq
  rw [hb] at hahead hsource
  replace hahead : channel.readAhead = [] := hahead.resolve_left (by rintro ⟨⟩)
  rw [source, hahead, Transport.putBack_nil] at hsource
  have hover : Framed.await { layer with
        stream := { layer.stream with unread := [] ++ (frames.flatMap Framed.encode ++ start) }, remaining := 0 } =
      Framed.await { layer with stream := { layer.stream with unread := start }, remaining := 0 } :=
    Framed.await_over hframes rfl rfl
  rw [Framed.encode] at hsplit
  rcases Bytes.split_front hsplit with hshort | ⟨rest, rfl, rfl⟩
  · rw [Bytes.length_bigEndian] at hshort
    obtain ⟨err, after, hpull, heof⟩ := @Transport.pull_framed_end { layer with
      stream := { layer.stream with unread := start }, remaining := 0 } rfl hshort hend
    rw [← Transport.pull_framed_of_await hover] at hpull
    exact .inl ⟨err, _, heof, fun n hn => fill_of_pull_error hahead (by rw [hsource]; exact hpull) hn⟩
  · have hinside : (rest ++ tail).length ≠ 0 := mt List.length_eq_zero_iff.mp hne
    have hhead := @Framed.await_head (rest ++ tail).length rest { layer with
      stream := { layer.stream with unread := Bytes.bigEndian 4 (rest ++ tail).length ++ rest }, remaining := 0 }
      rfl rfl hle
    have hawait := hover.trans (hhead.trans (Framed.await_inside hinside))
    refine .inr ⟨{ channel with transport := .framed { layer with
      stream := { layer.stream with unread := rest }, remaining := (rest ++ tail).length } },
      ⟨by rw [hb]; rintro ⟨⟩, ?_, ?_, ?_⟩, ?_⟩
    · rw [source, hahead, Transport.putBack_nil]
      exact hend
    · rw [source, hahead, Transport.putBack_nil]
      exact Nat.le_of_eq List.length_append.symm
    · refine .of_source ?_ hpending
      rw [source, hahead, Transport.putBack_nil, hb]
      simp only [Transport.holding, Transport.lengthen, Transport.withStream, Transport.stream, Stream.push,
        List.append_nil]
    · intro n hn
      refine fill_of_read ?_ (by rw [hahead]; exact hn)
      rw [hsource]
      simp only [Transport.holding, List.length_nil, Transport.read, Transport.dispatch, onPart,
        Framed.read_of_await (by decide : readSize ≠ 0) hawait hinside]

/-- An envelope that is cut short is not entered. -/
theorem Holds.ends_header {channel base : Channel} {head : EnvelopeHead} {payload start tail : Bytes}
    (h : channel.Holds base [] start) {layer : Enveloped} (hb : base.transport = .header layer)
    (hsplit : Enveloped.encode head payload = start ++ tail) (htail : tail ≠ [])
    (hle : EnvelopeHead.fixedSize + head.encodeBlock.length + payload.length ≤ layer.maxSize.toNat)
    (hend : layer.stream.ending = none) :
    ∃ err after, err.isEof = true ∧ ∀ n, 0 < n → Channel.fill n channel = .error err after := by
  obtain ⟨frames, hsource, -, hcarries, -, hahead⟩ := h.source_eq
  obtain rfl : frames = [] := hcarries.eq_nil (by rw [hb]; rintro ⟨⟩)
  rw [hb] at hahead hsource
  replace hahead : channel.readAhead = [] := hahead.resolve_left (by rintro ⟨⟩)
  rw [source, hahead, Transport.putBack_nil] at hsource
  obtain ⟨err, after, hpull, heof⟩ := @Transport.pull_header_end head payload start tail
    { layer with stream := { layer.stream with unread := start }, payload := [] } rfl rfl hsplit htail hle hend
  exact ⟨err, _, heof, fun n hn => fill_of_pull_error hahead (by rw [hsource]; exact hpull) hn⟩

/-- Where a message is cut short, reading ahead meets the end of the stream at once, or gets to what is there of the
message. -/
theorem Holds.ends_or_enters {channel base : Channel} {wrapping : Wrapping} {payload start tail : Bytes}
    (h : channel.Holds base [] start) (hsplit : wrapping.wrap payload = start ++ tail) (htail : tail ≠ [])
    (hne : payload ≠ []) (hfits : wrapping.Fits payload base.transport.kind base.transport.maxSize)
    (hend : base.transport.stream.ending = none) :
    (∃ err after, err.isEof = true ∧ ∀ n, 0 < n → Channel.fill n channel = .error err after) ∨
      ∃ entered, InFront base payload tail entered ∧ ∀ n, 0 < n → Channel.fill n channel = Channel.fill n entered := by
  rcases Transport.cases_of_fits hfits with ⟨stream, hb, rfl⟩ | ⟨layer, hb, rfl, hle⟩ | ⟨layer, head, hb, rfl, hle⟩
  · rw [hb] at hend
    obtain rfl : payload = start ++ tail := hsplit
    exact .inr ⟨channel, h.inFront_raw hb hend, fun _ _ => rfl⟩
  · rw [hb] at hend
    exact h.ends_or_enters_framed hb hsplit hne hle hend
  · rw [hb] at hend
    exact .inl (h.ends_header hb hsplit htail hle hend)

/-- In front of a message that is all there, with anything behind it. -/
theorem Holds.faces_wrap {channel base : Channel} {wrapping : Wrapping} {payload later : Bytes}
    (h : channel.Holds base [] (wrapping.wrap payload ++ later))
    (hfits : wrapping.Fits payload base.transport.kind base.transport.maxSize) :
    channel.Faces base wrapping payload [] later := by
  rcases Transport.cases_of_fits hfits with ⟨stream, hb, rfl⟩ | ⟨layer, hb, rfl, hle⟩ | ⟨layer, head, -, rfl, -⟩
  · obtain ⟨frames, hsource, -, hcarries, hpending, -⟩ := h.source_eq
    obtain rfl : frames = [] := hcarries.eq_nil (by rw [hb]; rintro ⟨⟩)
    refine .of_source ?_ hpending
    rw [hsource, hb]
    simp only [Transport.holding, Wrapping.wrap, List.flatMap_nil, List.nil_append, List.append_nil]
  · obtain ⟨front, frames, hs, hnone, hcarries⟩ := h
    obtain ⟨rfl, hframes⟩ := List.append_eq_nil_iff.mp hnone
    rw [hb] at hcarries
    refine ⟨[], frames ++ [payload], ?_, ?_, ?_⟩
    · rw [hs, List.flatMap_append, List.flatMap_singleton, List.append_assoc]
      rfl
    · rw [List.nil_append, List.flatten_append, hframes, List.flatten_singleton, List.append_nil, List.nil_append]
    · rw [hb]
      exact List.forall_mem_append.mpr ⟨hcarries, List.forall_mem_singleton.mpr hle⟩
  · exact ⟨rfl, h⟩

/-- In a message that is not in an envelope. -/
theorem Holds.faces_inside {channel base : Channel} {wrapping : Wrapping} {payload later : Bytes}
    (h : channel.Holds base payload later) (hkind : base.transport.kind ≠ .header)
    (hfits : wrapping.Fits payload base.transport.kind base.transport.maxSize) :
    channel.Faces base wrapping payload [] later := by
  have hcurrent : channel.Holds base (payload ++ []) later := by
    rw [List.append_nil]
    exact h
  rcases Transport.cases_of_fits hfits with ⟨stream, -, rfl⟩ | ⟨layer, -, rfl, -⟩ | ⟨layer, head, hb, -, -⟩
  · exact hcurrent
  · exact hcurrent
  · rw [hb] at hkind
    exact absurd rfl hkind

/-- A channel that has nothing left is not one of which a part is missing. -/
theorem Holds.not_cut {channel channel' base : Channel} (h : channel'.Holds base [] []) {tail : Bytes}
    (htail : tail ≠ []) {n : Nat} : ¬Transport.Cut tail n channel.source channel'.source := by
  intro hcut
  obtain ⟨frames, hsource, -, hcarries, -, -⟩ := h.source_eq
  have hlonger := hcut.longer
  have hlacks := hcut.lacks
  rw [hsource] at hlonger
  generalize channel.source = source at hlonger hlacks
  have hpos := List.length_pos_iff.mpr htail
  cases hb : base.transport with
  | raw stream =>
    obtain rfl : frames = [] := hcarries.eq_nil (by rw [hb]; rintro ⟨⟩)
    rw [hb] at hlonger
    cases source with
    | raw stream' =>
      have hunread := congrArg (fun transport : Transport => transport.stream.unread.length) hlonger
      simp only [Transport.holding, Transport.lengthen, Transport.withStream, Transport.stream, Stream.push,
        List.flatMap_nil, List.append_nil, List.length_nil, List.length_append] at hunread
      omega
    | framed layer => cases hlonger
    | header layer => cases hlonger
  | framed layer =>
    rw [hb] at hlonger
    cases source with
    | raw stream' => cases hlonger
    | framed layer' =>
      have hremaining : 0 = layer'.remaining := congrArg Framed.remaining (Transport.framed.inj hlonger)
      simp only [Transport.Lacks] at hlacks
      omega
    | header layer' => cases hlonger
  | header layer =>
    rw [hb] at hlonger
    cases source with
    | raw stream' => cases hlonger
    | framed layer' => cases hlonger
    | header layer' => exact hlacks

end Channel

/-- Every octet that is read makes the input that ends shorter. -/
theorem Transport.sized_cut {tail : Bytes} (htail : tail ≠ []) : (Transport.cut tail htail).channels.Sized := by
  refine ⟨fun _ _ h => Nat.not_lt_zero _ h.source.less, fun h => ⟨?_, h.pending, h.captured⟩⟩
  refine ⟨h.source.longer, h.source.ending, h.source.lacks, ?_⟩
  rw [Channel.available_source]
  exact Nat.lt_succ_self _

end RpcWire
