import RpcWire.Channel
import RpcWire.Proofs.Frames

/-! What a channel can still deliver of the frame or envelope it is in, with the octets read ahead put back.
Reading ahead leaves it as it is, so readers need not know how octets arrive. -/
namespace RpcWire

namespace Transport

/-- The transport before it delivered the last octets of the frame or envelope it is in. -/
def putBack (bytes : Bytes) : Transport → Transport
  | .raw stream => .raw { stream with unread := bytes ++ stream.unread }
  | .framed layer => .framed { layer with
      stream := { layer.stream with unread := bytes ++ layer.stream.unread }
      remaining := bytes.length + layer.remaining }
  | .header layer => .header { layer with payload := bytes ++ layer.payload }

/-- The transport with `current` left of the frame or envelope it is in, and `later` behind it on the stream. -/
def holding (current later : Bytes) : Transport → Transport
  | .raw stream => .raw { stream with unread := current ++ later }
  | .framed layer => .framed { layer with
      stream := { layer.stream with unread := current ++ later }
      remaining := current.length }
  | .header layer => .header { layer with
      stream := { layer.stream with unread := later }
      payload := current }

def HasMore : Transport → Prop
  | .raw stream => stream.unread ≠ []
  | .framed layer => 0 < layer.remaining ∧ layer.remaining ≤ layer.stream.unread.length
  | .header layer => layer.payload ≠ []

/-- Frames that stand on the stream behind the one that the transport is in. There are none where octets do not come
in frames. -/
def Carries (frames : List Bytes) : Transport → Prop
  | .framed layer => ∀ frame ∈ frames, frame.length ≤ layer.maxSize.toNat
  | _ => frames = []

private theorem carries_nil (transport : Transport) : transport.Carries [] := by
  cases transport with
  | framed layer => exact List.forall_mem_nil _
  | raw stream => rfl
  | header layer => rfl

theorem Carries.eq_nil {frames : List Bytes} {transport : Transport} (h : transport.Carries frames)
    (hkind : transport.kind ≠ .framed) : frames = [] := by
  cases transport with
  | framed layer => exact absurd rfl hkind
  | raw stream => exact h
  | header layer => exact h

theorem putBack_append (first second : Bytes) (transport : Transport) :
    (transport.putBack second).putBack first = transport.putBack (first ++ second) := by
  cases transport <;> simp [putBack, Nat.add_assoc]

@[simp] theorem holding_putBack (bytes current later : Bytes) (transport : Transport) :
    (transport.putBack bytes).holding current later = transport.holding current later := by
  cases transport <;> rfl

@[simp] theorem holding_holding (current later current' later' : Bytes) (transport : Transport) :
    (transport.holding current' later').holding current later = transport.holding current later := by
  cases transport <;> rfl

@[simp] theorem kind_holding (current later : Bytes) (transport : Transport) :
    (transport.holding current later).kind = transport.kind := by
  cases transport <;> rfl

@[simp] theorem head?_holding (current later : Bytes) (transport : Transport) :
    (transport.holding current later).head? = transport.head? := by
  cases transport <;> rfl

@[simp] theorem written_holding (current later : Bytes) (transport : Transport) :
    (transport.holding current later).stream.written = transport.stream.written := by
  cases transport <;> rfl

@[simp] theorem written_putBack (bytes : Bytes) (transport : Transport) :
    (transport.putBack bytes).stream.written = transport.stream.written := by
  cases transport <;> rfl

@[simp] theorem putBack_nil (transport : Transport) : transport.putBack [] = transport := by
  cases transport <;> simp [putBack]

/-- A read within a frame or envelope takes some octets of it, and nothing else changes. -/
theorem read_within {n : Nat} {transport : Transport} (hn : 0 < n) (h : transport.HasMore) :
    ∃ got after, got ≠ [] ∧ read n transport = .ok got after ∧ after.putBack got = transport := by
  cases transport with
  | raw stream =>
    obtain ⟨got, rest, hg, -, he, hr⟩ := Stream.read_front hn h
    refine ⟨got, .raw { stream with unread := rest }, hg, ?_, ?_⟩
    · simp only [read, dispatch, onPart, hr]
    · simp only [putBack, ← he]
  | framed layer =>
    obtain ⟨hpos, hle⟩ := h
    have hne : layer.stream.unread ≠ [] := by
      rw [← List.length_pos_iff]
      omega
    obtain ⟨got, rest, hg, hlen, he, hr⟩ := Stream.read_front (by omega : 0 < min n layer.remaining) hne
    refine ⟨got, .framed { layer with
      stream := { layer.stream with unread := rest }, remaining := layer.remaining - got.length }, hg, ?_, ?_⟩
    · have ha : Framed.await layer = .ok true layer := by
        rw [Framed.await]
        simp [Nat.pos_iff_ne_zero.mp hpos]
      simp [read, dispatch, onPart, Framed.read, Framed.onStream, ha, hr, hg, bind, EStateM.bind, pure,
        EStateM.pure, get_ok, modify_ok, Nat.pos_iff_ne_zero.mp hn]
    · have hr' : got.length + (layer.remaining - got.length) = layer.remaining := by omega
      simp only [putBack, ← he, hr']
  | header layer =>
    have hp : layer.payload ≠ [] := h
    have ha : Enveloped.await layer = .ok true layer := by
      rw [Enveloped.await]
      simp [hp]
    refine ⟨layer.payload.take n, .header { layer with payload := layer.payload.drop n }, ?_, ?_, ?_⟩
    · simp only [ne_eq, List.take_eq_nil_iff, hp, or_false]
      omega
    · simp [read, dispatch, onPart, Enveloped.read, ha, bind, EStateM.bind, pure, EStateM.pure, get_ok,
        set_ok, Nat.pos_iff_ne_zero.mp hn]
    · simp [putBack]

end Transport

namespace Channel

def settled (channel : Channel) : Channel :=
  { channel with transport := channel.transport.putBack channel.readAhead, readAhead := [], captured := none }

def holding (channel : Channel) (current later : Bytes) : Channel :=
  { channel with transport := channel.transport.holding current later, readAhead := [], captured := none }

private theorem hasMore_of_settled {channel base : Channel} {current later : Bytes}
    (h : channel.settled = base.holding current later) (hlt : channel.readAhead.length < current.length) :
    channel.transport.HasMore := by
  have ht : channel.transport.putBack channel.readAhead = base.transport.holding current later :=
    congrArg Channel.transport h
  cases hc : channel.transport <;> cases hb : base.transport <;>
    simp only [hc, hb, Transport.putBack, Transport.holding, reduceCtorEq, Transport.raw.injEq,
      Transport.framed.injEq, Transport.header.injEq, Framed.mk.injEq, Enveloped.mk.injEq,
      Stream.mk.injEq] at ht <;>
    simp only [Transport.HasMore]
  · have := congrArg List.length ht.1
    simp only [List.length_append] at this
    rw [ne_eq, ← List.length_eq_zero_iff]
    omega
  · have := congrArg List.length ht.1.1
    simp only [List.length_append] at this
    omega
  · have := congrArg List.length ht.2.2.2.1
    simp only [List.length_append] at this
    rw [ne_eq, ← List.length_eq_zero_iff]
    omega

/-- Octets read ahead that belong to the frame or envelope are its next ones, and consuming them moves on in it. -/
theorem settled_drop {n : Nat} {channel base : Channel} {current later : Bytes}
    (h : channel.settled = base.holding current later) (hn : n ≤ current.length)
    (hr : n ≤ channel.readAhead.length) :
    channel.readAhead.take n = current.take n ∧
      { channel with readAhead := channel.readAhead.drop n }.settled = base.holding (current.drop n) later := by
  have ht : channel.transport.putBack channel.readAhead = base.transport.holding current later :=
    congrArg Channel.transport h
  have hp : channel.settled.pending = (base.holding current later).pending := congrArg Channel.pending h
  change channel.pending = base.pending at hp
  have hcut (rest : Bytes) : (channel.readAhead ++ rest).take n = channel.readAhead.take n ∧
      (channel.readAhead ++ rest).drop n = channel.readAhead.drop n ++ rest :=
    ⟨List.take_append_of_le_length hr, List.drop_append_of_le_length hr⟩
  have hcut' : (current ++ later).take n = current.take n ∧
      (current ++ later).drop n = current.drop n ++ later :=
    ⟨List.take_append_of_le_length hn, List.drop_append_of_le_length hn⟩
  cases hc : channel.transport <;> cases hb : base.transport <;>
    simp only [hc, hb, Transport.putBack, Transport.holding, reduceCtorEq, Transport.raw.injEq,
      Transport.framed.injEq, Transport.header.injEq, Framed.mk.injEq, Enveloped.mk.injEq,
      Stream.mk.injEq] at ht <;>
    simp only [settled, holding, hb, hp, Transport.putBack, Transport.holding, mk.injEq, Transport.raw.injEq,
      Transport.framed.injEq, Transport.header.injEq, Framed.mk.injEq, Enveloped.mk.injEq, Stream.mk.injEq]
  · have hu := ht.1
    exact ⟨by rw [← (hcut _).1, hu, hcut'.1], ⟨by rw [← (hcut _).2, hu, hcut'.2], ht.2⟩, by simp⟩
  · have hu := ht.1.1
    refine ⟨by rw [← (hcut _).1, hu, hcut'.1], ⟨⟨by rw [← (hcut _).2, hu, hcut'.2], ht.1.2⟩, ht.2.1, ?_, ht.2.2.2⟩,
      by simp⟩
    simp only [List.length_drop]
    omega
  · have hu := ht.2.2.2.1
    refine ⟨by rw [← (hcut _).1, hu], ⟨ht.1, ht.2.1, ht.2.2.1, by rw [← (hcut _).2, hu], ht.2.2.2.2⟩, by simp⟩

/-- Octets read ahead belong to the frame or envelope that the channel is in, where there are any. -/
theorem readAhead_of_settled {channel base : Channel} {current later : Bytes}
    (h : channel.settled = base.holding current later) :
    channel.readAhead.length ≤ current.length ∨ base.transport.kind = .raw := by
  have ht : channel.transport.putBack channel.readAhead = base.transport.holding current later :=
    congrArg Channel.transport h
  cases hc : channel.transport <;> cases hb : base.transport <;>
    simp only [hc, hb, Transport.putBack, Transport.holding, reduceCtorEq, Transport.framed.injEq,
      Transport.header.injEq, Framed.mk.injEq, Enveloped.mk.injEq] at ht
  · exact .inr rfl
  · left
    omega
  · left
    rw [← ht.2.2.2.1, List.length_append]
    omega

/-- What the channel delivers next, in one frame or in many, or what is left of an envelope. Behind it on the stream
stands `later`. -/
def Holds (channel base : Channel) (current later : Bytes) : Prop :=
  ∃ front frames, channel.settled = base.holding front (frames.flatMap Framed.encode ++ later) ∧
    front ++ frames.flatten = current ∧ base.transport.Carries frames

theorem Holds.of_settled {channel base : Channel} {current later : Bytes}
    (h : channel.settled = base.holding current later) : channel.Holds base current later :=
  ⟨current, [], h, List.append_nil current, base.transport.carries_nil⟩

/-- Apart from the input, the channel is what it is told to be. -/
theorem Holds.apart {channel base : Channel} {current later : Bytes} (h : channel.Holds base current later) :
    channel.transport.holding [] [] = base.transport.holding [] [] ∧ channel.pending = base.pending := by
  obtain ⟨front, frames, hs, -⟩ := h
  have ht : channel.transport.putBack channel.readAhead = base.transport.holding front _ :=
    congrArg Channel.transport hs
  have hp : channel.settled.pending = (base.holding front _).pending := congrArg Channel.pending hs
  refine ⟨?_, hp⟩
  have hall := congrArg (Transport.holding [] []) ht
  simpa using hall

/-- A change of the transport that has nothing to do with its input leaves what is held. -/
theorem Holds.mapTransport {channel base : Channel} {current later : Bytes} (h : channel.Holds base current later)
    {f : Transport → Transport} (hback : ∀ bytes transport, (f transport).putBack bytes = f (transport.putBack bytes))
    (hholding : ∀ current later transport, (f transport).holding current later = f (transport.holding current later))
    (hcarries : ∀ frames transport, Transport.Carries frames transport → (f transport).Carries frames) :
    { channel with transport := f channel.transport }.Holds { base with transport := f base.transport } current
      later := by
  obtain ⟨front, frames, hs, hcurrent, hfit⟩ := h
  have ht : channel.transport.putBack channel.readAhead = base.transport.holding front _ :=
    congrArg Channel.transport hs
  have hp : channel.settled.pending = (base.holding front _).pending := congrArg Channel.pending hs
  refine ⟨front, frames, ?_, hcurrent, hcarries frames _ hfit⟩
  rw [settled, holding, hback, hholding, ht]
  exact congrArg (Channel.mk _ [] · none) hp

/-- While not all of it is read ahead, a read gets more of it. -/
theorem Holds.read {channel base : Channel} {current later : Bytes} (h : channel.Holds base current later)
    (hlt : channel.readAhead.length < current.length) :
    ∃ got after, got ≠ [] ∧ Transport.read readSize channel.transport = .ok got after ∧
      { channel with transport := after, readAhead := channel.readAhead ++ got }.Holds base current later := by
  obtain ⟨front, frames, hs, hcurrent, hcarries⟩ := h
  by_cases hin : channel.readAhead.length < front.length
  · obtain ⟨got, after, hgot, hread, hback⟩ :=
      Transport.read_within (by decide : 0 < readSize) (hasMore_of_settled hs hin)
    refine ⟨got, after, hgot, hread, front, frames, ?_, hcurrent, hcarries⟩
    rw [← hs]
    simp only [settled, ← hback, Transport.putBack_append]
  · have hmore : frames.flatten ≠ [] := by
      rw [← hcurrent, List.length_append] at hlt
      rw [← List.length_pos_iff]
      omega
    have ht : channel.transport.putBack channel.readAhead =
        base.transport.holding front (frames.flatMap Framed.encode ++ later) := congrArg Channel.transport hs
    have hp : channel.settled.pending = (base.holding front _).pending := congrArg Channel.pending hs
    change channel.pending = base.pending at hp
    cases hb : base.transport with
    | raw stream => exact absurd (by rw [hcarries.eq_nil (by rw [hb]; exact nofun)]; rfl) hmore
    | header layer => exact absurd (by rw [hcarries.eq_nil (by rw [hb]; exact nofun)]; rfl) hmore
    | framed layer =>
      rw [hb] at ht hcarries
      cases hc : channel.transport with
      | raw stream' => rw [hc] at ht; cases ht
      | header layer' => rw [hc] at ht; cases ht
      | framed layer' =>
        rw [hc] at ht
        simp only [Transport.putBack, Transport.holding, Transport.framed.injEq, Framed.mk.injEq,
          Stream.mk.injEq] at ht
        obtain ⟨⟨hunread, hwritten, hchunk, hending, hlimit⟩, hmax, hremaining, hpending⟩ := ht
        obtain ⟨hahead, hunread⟩ := List.append_inj hunread (by omega)
        have hbetween : layer'.remaining = 0 := by
          rw [hahead] at hremaining
          omega
        obtain ⟨frame, rest, hframe, hall, hfit, hawait⟩ :=
          Framed.await_frames hbetween hunread (by rw [hmax]; exact hcarries) hmore
        have hinside : frame.length ≠ 0 := mt List.length_eq_zero_iff.mp hframe
        obtain ⟨got, after, hgot, hread, hback⟩ := Transport.read_within (by decide : 0 < readSize)
          (show Transport.HasMore (.framed { layer' with
            stream := { layer'.stream with unread := frame ++ (rest.flatMap Framed.encode ++ later) }
            remaining := frame.length }) from ⟨Nat.pos_of_ne_zero hinside, by simp⟩)
        have hsame : Transport.read readSize (.framed layer') = .ok got after := by
          rw [← hread]
          simp only [Transport.read, Transport.dispatch, onPart,
            Framed.read_of_await (by decide : readSize ≠ 0) hawait hinside]
        refine ⟨got, after, hgot, hsame, front ++ frame, rest, ?_, ?_, ?_⟩
        · rw [settled, ← Transport.putBack_append, hback, hahead, holding, hb]
          simp only [Transport.putBack, Transport.holding, hwritten, hchunk, hending, hlimit, hmax, hpending, hp,
            List.length_append, List.append_assoc]
        · rw [List.append_assoc, hall, hcurrent]
        · rw [hb]
          rw [hmax] at hfit
          exact hfit

/-- Reading ahead gets all that is asked for of what is there, and what the channel can deliver stays the same. -/
theorem Holds.fill {n : Nat} {channel base : Channel} {current later : Bytes} (h : channel.Holds base current later)
    (hn : n ≤ current.length) :
    ∃ after, fill n channel = .ok () after ∧ n ≤ after.readAhead.length ∧ after.Holds base current later := by
  induction hk : n - channel.readAhead.length using Nat.strongRecOn generalizing channel with
  | ind k ih =>
    rw [Channel.fill]
    split
    · next hle => exact ⟨channel, rfl, hle, h⟩
    · next hle =>
      obtain ⟨got, after, hgot, hread, hafter⟩ := h.read (by omega)
      obtain ⟨first, more, rfl⟩ := List.exists_cons_of_ne_nil hgot
      rw [hread]
      refine ih _ ?_ hafter rfl
      simp only [List.length_append, List.length_cons]
      omega

/-- Octets read ahead are the next ones, and consuming them moves on. -/
theorem Holds.drop {n : Nat} {channel base : Channel} {current later : Bytes} (h : channel.Holds base current later)
    (hn : n ≤ current.length) (hr : n ≤ channel.readAhead.length) :
    channel.readAhead.take n = current.take n ∧
      { channel with readAhead := channel.readAhead.drop n }.Holds base (current.drop n) later := by
  obtain ⟨front, frames, hs, rfl, hcarries⟩ := h
  have hfront : n ≤ front.length := by
    rcases readAhead_of_settled hs with hle | hnone
    · omega
    · rw [hcarries.eq_nil (by rw [hnone]; exact nofun), List.flatten_nil, List.append_nil] at hn
      exact hn
  obtain ⟨htake, hdrop⟩ := settled_drop hs hfront hr
  rw [List.take_append_of_le_length hfront, List.drop_append_of_le_length hfront]
  exact ⟨htake, _, frames, hdrop, rfl, hcarries⟩

/-- Octets that the channel holds are read however they arrive. -/
theorem Holds.read_bytes {channel base : Channel} {bytes rest later : Bytes}
    (h : channel.Holds base (bytes ++ rest) later) :
    ∃ after, Channel.read bytes.length channel = .ok bytes after ∧ after.Holds base rest later := by
  obtain ⟨filled, hf, hlen, hs⟩ := h.fill (by simp : bytes.length ≤ (bytes ++ rest).length)
  obtain ⟨htake, hdrop⟩ := hs.drop (by simp) hlen
  rw [List.take_left] at htake
  rw [List.drop_left] at hdrop
  refine ⟨{ filled with
    readAhead := filled.readAhead.drop bytes.length, captured := filled.captured.map (· ++ bytes) }, ?_, hdrop⟩
  simp only [Channel.read, bind, EStateM.bind, hf, get_ok, set_ok, pure, EStateM.pure, htake]

theorem available_of_settled {channel base : Channel} {current later : Bytes}
    (h : channel.settled = base.holding current later) : channel.available = current.length + later.length := by
  have ha : channel.settled.available = channel.available := by
    cases hc : channel.transport <;>
      simp [settled, available, hc, Transport.putBack, Transport.available, Nat.add_assoc]
  rw [← ha, h]
  cases hb : base.transport <;>
    simp [holding, available, hb, Transport.holding, Transport.available]

/-- What the channel holds can be consumed before the input ends. -/
theorem Holds.length_le_available {channel base : Channel} {current later : Bytes}
    (h : channel.Holds base current later) : current.length + later.length ≤ channel.available := by
  obtain ⟨front, frames, hs, rfl, -⟩ := h
  have hframes := Framed.length_flatten_le frames
  rw [available_of_settled hs, List.length_append, List.length_append]
  omega

end Channel
end RpcWire
