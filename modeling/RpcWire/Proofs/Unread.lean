import RpcWire.Proofs.Arrival
import RpcWire.Proofs.Boundaries

/-! The octets that a channel still has to consume, as one sequence: those read ahead, what is left of a frame or an
envelope, and what the stream will deliver behind it. Reading ahead leaves the sequence as it is, a read takes octets
off its front, and a failure takes none. -/
namespace RpcWire

def UsesUp {ε σ α : Type} (left : σ → Nat) (act : EStateM ε σ α) : Prop :=
  ∀ state, stateOf (act state) = state ∨ left (stateOf (act state)) < left state

namespace UsesUp
variable {ε σ α β : Type} {left : σ → Nat} {act : EStateM ε σ α} {state after : σ}

private theorem of_ok {value : α} (h : UsesUp left act) (hr : act state = .ok value after) :
    after = state ∨ left after < left state := by
  have hact := h state
  rwa [hr] at hact

private theorem of_error {err : ε} (h : UsesUp left act) (hr : act state = .error err after) :
    after = state ∨ left after < left state := by
  have hact := h state
  rwa [hr] at hact

private theorem pure (value : α) : UsesUp left (pure value : EStateM ε σ α) := fun _ => .inl rfl

private theorem throw (err : ε) : UsesUp left (throw err : EStateM ε σ α) := fun _ => .inl rfl

private theorem bind {next : α → EStateM ε σ β} (h : UsesUp left act)
    (hnext : ∀ value, UsesUp left (next value)) :
    UsesUp left (act >>= next) := by
  intro state
  cases hr : act state with
  | error err middle =>
    rw [bind_of_error hr]
    exact h.of_error hr
  | ok value middle =>
    rw [bind_of_ok hr]
    rcases h.of_ok hr, hnext value middle with ⟨rfl | hless, hrest | hrest⟩
    · exact .inl hrest
    · exact .inr hrest
    · rw [hrest]
      exact .inr hless
    · exact .inr (Nat.lt_trans hrest hless)

end UsesUp

namespace Stream

def available (stream : Stream) : Nat := stream.unread.length

private theorem usesUp_readFull (n : Nat) : UsesUp available (readFull n) := by
  intro stream
  by_cases hlen : n ≤ stream.unread.length
  · rw [readFull_front hlen]
    cases n with
    | zero => exact .inl (by simp [stateOf])
    | succ n =>
      right
      simp only [available, stateOf, List.length_drop]
      omega
  · have hstate : stateOf (readFull n stream) = { stream with unread := [] } := by
      rw [readFull_short (Nat.lt_of_not_le hlen)]
      cases stream.ending <;> rfl
    rw [hstate]
    cases hunread : stream.unread with
    | nil =>
      left
      rw [← hunread]
    | cons first rest =>
      right
      rw [available, available, hunread]
      exact Nat.succ_pos _

private theorem usesUp_readLength : UsesUp available readLength := by
  refine (usesUp_readFull 4).bind fun bytes => ?_
  split
  · exact .pure none
  · split
    · exact .throw _
    · exact .pure _

end Stream

namespace Framed

def available (layer : Framed) : Nat := layer.stream.unread.length

private theorem usesUp_await : UsesUp available await := by
  intro layer
  have hlength (layer : Framed) (stream : Stream)
      (h : stream = layer.stream ∨ stream.available < layer.stream.available) :
      { layer with stream } = layer ∨ available { layer with stream } < available layer := by
    rcases h with rfl | hless
    · exact .inl rfl
    · exact .inr hless
  fun_induction await layer with
  | case1 => exact .inl rfl
  | case2 layer hdone err stream hread => exact hlength layer stream (Stream.usesUp_readLength.of_error hread)
  | case3 layer hdone stream hread => exact hlength layer stream (Stream.usesUp_readLength.of_ok hread)
  | case4 layer hdone length stream hread hlarge =>
    exact .inr (Stream.length_unread_readLength hread)
  | case5 layer hdone length stream hread hfit ih =>
    have hless := Stream.length_unread_readLength hread
    right
    rcases ih with hsame | hmore
    · rw [hsame]
      exact hless
    · exact Nat.lt_trans hmore hless

end Framed

namespace EnvelopeHead

/-- The payload of an envelope stands in the envelope. -/
theorem length_accept_le {frame payload : Bytes} {head after : EnvelopeHead}
    (h : accept frame head = .ok payload after) : payload.length ≤ frame.length := by
  obtain ⟨-, -, -, rfl⟩ := accept_eq_ok_iff.mp h
  simp only [List.length_drop]
  omega

end EnvelopeHead

namespace Enveloped

def available (layer : Enveloped) : Nat := layer.payload.length + layer.stream.unread.length

/-- Loading an envelope, whether it is accepted or refused, adds nothing. -/
theorem available_load_le {length : UInt32} {layer : Enveloped} (h : layer.payload = []) :
    available (stateOf (load length layer)) ≤ available layer := by
  unfold load
  split
  · exact Nat.le_refl _
  split
  · exact Nat.le_refl _
  split
  · next err stream hread =>
    rcases (Stream.usesUp_readFull length.toNat).of_error hread with rfl | hless
    · exact Nat.le_refl _
    · exact Nat.add_le_add_left (Nat.le_of_lt hless) _
  · next frame stream hread =>
    have hlength := Stream.length_unread_readFull hread
    split
    · simp only [stateOf, available]
      omega
    split
    · simp only [stateOf, available]
      omega
    · next payload head haccept =>
      have hpayload := EnvelopeHead.length_accept_le haccept
      simp only [stateOf, available, h, List.length_nil]
      omega

private theorem usesUp_await : UsesUp available await := by
  intro layer
  have hlength (layer : Enveloped) (stream : Stream)
      (h : stream = layer.stream ∨ stream.available < layer.stream.available) :
      { layer with stream } = layer ∨ available { layer with stream } < available layer := by
    rcases h with rfl | hless
    · exact .inl rfl
    · exact .inr (Nat.add_lt_add_left hless _)
  have hload {layer after : Enveloped} {length : UInt32} {stream : Stream} (hdone : ¬layer.payload ≠ [])
      (hread : Stream.readLength layer.stream = .ok (some length) stream)
      (h : stateOf (load length { layer with stream }) = after) : available after < available layer := by
    have hless := Stream.length_unread_readLength hread
    have hle := @available_load_le length { layer with stream } (Decidable.not_not.mp hdone)
    rw [h] at hle
    simp only [available] at hle ⊢
    omega
  fun_induction await layer with
  | case1 => exact .inl rfl
  | case2 layer hdone err stream hread => exact hlength layer stream (Stream.usesUp_readLength.of_error hread)
  | case3 layer hdone stream hread => exact hlength layer stream (Stream.usesUp_readLength.of_ok hread)
  | case4 layer hdone length stream hread err entered hl => exact .inr (hload hdone hread (by rw [hl]; rfl))
  | case5 layer hdone length stream hread entered hl ih =>
    have hless := hload hdone hread (show _ = entered by rw [hl]; rfl)
    right
    rcases ih with hsame | hmore
    · rw [hsame]
      exact hless
    · exact Nat.lt_trans hmore hless

end Enveloped

namespace Transport

/-- Taking an octet uses it up; where there is none to take, nothing changes or something was passed over. -/
theorem pull_cases (transport : Transport) :
    (∃ first after, pull transport = .ok first after ∧ after.available < transport.available) ∨
    ∃ err after, pull transport = .error err after ∧
      (after = transport ∨ after.available < transport.available) := by
  rw [pull_eq]
  cases transport with
  | raw stream =>
    simp only [read, dispatch, onPart]
    cases hunread : stream.unread with
    | nil =>
      rw [Stream.read_nil 1 hunread]
      cases stream.ending <;> exact .inr ⟨_, _, rfl, .inl rfl⟩
    | cons first rest =>
      obtain ⟨more, -, hread⟩ := Stream.read_cons Nat.zero_lt_one hunread
      rw [hread]
      refine .inl ⟨_, _, rfl, ?_⟩
      simp only [available, hunread, List.length_drop, List.length_cons]
      omega
  | framed layer =>
    simp only [read, dispatch, onPart, Framed.read_eq Nat.zero_lt_one]
    have huses {entered : Framed} (h : entered = layer ∨ entered.available < layer.available) :
        Transport.framed entered = .framed layer ∨
          (Transport.framed entered).available < (Transport.framed layer).available := h.imp_left (congrArg _)
    cases hawait : Framed.await layer with
    | error err entered => exact .inr ⟨_, _, rfl, huses (Framed.usesUp_await.of_error hawait)⟩
    | ok more entered =>
      have hentered := huses (Framed.usesUp_await.of_ok hawait)
      cases more with
      | false => exact .inr ⟨_, _, rfl, hentered⟩
      | true =>
        have hmore := Framed.remaining_of_await hawait
        cases hunread : entered.stream.unread with
        | nil =>
          simp only [Stream.read_nil _ hunread]
          cases entered.stream.ending <;> exact .inr ⟨_, _, rfl, hentered⟩
        | cons first rest =>
          obtain ⟨more, -, hread⟩ := Stream.read_cons (by omega : 0 < min 1 entered.remaining) hunread
          simp only [hread]
          refine .inl ⟨_, _, rfl, ?_⟩
          have hle : entered.stream.unread.length ≤ layer.stream.unread.length :=
            hentered.elim (fun h => by cases h; exact Nat.le_refl _) Nat.le_of_lt
          rw [hunread] at hle
          simp only [available, List.length_drop, List.length_cons] at hle ⊢
          omega
  | header layer =>
    simp only [read, dispatch, onPart, Enveloped.read_eq Nat.zero_lt_one]
    have huses {entered : Enveloped} (h : entered = layer ∨ entered.available < layer.available) :
        Transport.header entered = .header layer ∨
          (Transport.header entered).available < (Transport.header layer).available := h.imp_left (congrArg _)
    cases hawait : Enveloped.await layer with
    | error err entered => exact .inr ⟨_, _, rfl, huses (Enveloped.usesUp_await.of_error hawait)⟩
    | ok more entered =>
      have hentered := huses (Enveloped.usesUp_await.of_ok hawait)
      cases more with
      | false => exact .inr ⟨_, _, rfl, hentered⟩
      | true =>
        obtain ⟨first, rest, hpayload⟩ := List.exists_cons_of_ne_nil (Enveloped.payload_of_await hawait)
        simp only [hpayload, List.take_succ_cons, List.take_zero, List.drop_succ_cons, List.drop_zero]
        refine .inl ⟨_, _, rfl, ?_⟩
        have hle : entered.available ≤ layer.available :=
          hentered.elim (fun h => by cases h; exact Nat.le_refl _) Nat.le_of_lt
        simp only [Enveloped.available, hpayload, List.length_cons] at hle
        simp only [available]
        omega

theorem available_of_pull {transport after : Transport} {first : UInt8} (h : pull transport = .ok first after) :
    after.available < transport.available := by
  rcases pull_cases transport with ⟨first', after', hpull, hless⟩ | ⟨err, after', hpull, -⟩
  · rw [h] at hpull
    cases hpull
    exact hless
  · rw [h] at hpull
    cases hpull

/-- The octets that a reader will be given, one after the other and over all failures, until nothing happens any
more. -/
def upcoming (transport : Transport) : Bytes :=
  match _h : pull transport with
  | .ok first after => first :: upcoming after
  | .error _ after => if after.available < transport.available then upcoming after else []
termination_by transport.available
decreasing_by
  · exact available_of_pull _h
  · assumption

theorem upcoming_of_pull {transport after : Transport} {first : UInt8} (h : pull transport = .ok first after) :
    upcoming transport = first :: upcoming after := by
  rw [upcoming]
  split
  · next hpull =>
    rw [h] at hpull
    cases hpull
    rfl
  · next hpull =>
    rw [h] at hpull
    cases hpull

/-- A failure takes none of them. -/
theorem upcoming_of_pull_error {transport after : Transport} {err : WireError} (h : pull transport = .error err after) :
    upcoming transport = upcoming after := by
  have huses : after = transport ∨ after.available < transport.available := by
    rcases pull_cases transport with ⟨first, after', hpull, -⟩ | ⟨err', after', hpull, huses⟩
    · rw [h] at hpull
      cases hpull
    · rw [h] at hpull
      cases hpull
      exact huses
  rcases huses with rfl | hless
  · rfl
  · rw [upcoming]
    split
    · next hpull =>
      rw [h] at hpull
      cases hpull
    · next hpull =>
      rw [h] at hpull
      cases hpull
      exact if_pos hless

/-- Where nothing can be taken and nothing changes, nothing is to come. -/
theorem upcoming_of_stuck {transport after : Transport} {err : WireError} (h : pull transport = .error err after)
    (hstuck : ¬after.available < transport.available) : transport.upcoming = [] := by
  rw [upcoming]
  split
  · next hpull =>
    rw [h] at hpull
    cases hpull
  · next hpull =>
    rw [h] at hpull
    cases hpull
    exact if_neg hstuck

private theorem upcoming_putBack (bytes : Bytes) (transport : Transport) :
    (transport.putBack bytes).upcoming = bytes ++ transport.upcoming := by
  induction bytes with
  | nil => rw [putBack_nil, List.nil_append]
  | cons first rest ih => rw [upcoming_of_pull (pull_putBack first rest transport), ih, List.cons_append]

/-- Without a layer they are what the stream has left. -/
theorem upcoming_raw (stream : Stream) : upcoming (.raw stream) = stream.unread := by
  have hend : upcoming (.raw { stream with unread := [] }) = [] := by
    have hpull : ∃ err, pull (.raw { stream with unread := [] }) = .error err (.raw { stream with unread := [] }) := by
      rw [pull_eq]
      simp only [read, dispatch, onPart, Stream.read_nil]
      cases stream.ending <;> exact ⟨_, rfl⟩
    obtain ⟨err, hpull⟩ := hpull
    exact upcoming_of_stuck hpull (Nat.lt_irrefl _)
  have hback : Transport.raw stream = (Transport.raw { stream with unread := [] }).putBack stream.unread := by
    simp only [putBack, List.append_nil]
  rw [hback, upcoming_putBack, hend, List.append_nil]

/-- Looking at the next octets finds the first of them, and leaves all. -/
theorem upcoming_ahead (n : Nat) (transport : Transport) :
    (stateOf (ahead n transport)).upcoming = transport.upcoming ∧
      ∀ bytes after, ahead n transport = .ok bytes after → transport.upcoming.take n = bytes ∧ bytes.length = n := by
  induction n generalizing transport with
  | zero =>
    refine ⟨rfl, ?_⟩
    rintro _ _ ⟨⟩
    exact ⟨rfl, rfl⟩
  | succ n ih =>
    rw [ahead_succ]
    cases hpull : pull transport with
    | error err after =>
      refine ⟨(upcoming_of_pull_error hpull).symm, ?_⟩
      rintro _ _ ⟨⟩
    | ok first middle =>
      obtain ⟨hstate, hbytes⟩ := ih middle
      rw [upcoming_of_pull hpull]
      dsimp only
      cases hrest : ahead n middle with
      | error err after =>
        rw [hrest] at hstate
        refine ⟨(upcoming_putBack [first] after).trans (congrArg _ hstate), ?_⟩
        rintro _ _ ⟨⟩
      | ok rest after =>
        rw [hrest] at hstate
        refine ⟨(upcoming_putBack [first] after).trans (congrArg _ hstate), ?_⟩
        rintro _ _ ⟨⟩
        obtain ⟨htake, hlength⟩ := hbytes rest after hrest
        exact ⟨by rw [List.take_succ_cons, htake], by rw [List.length_cons, hlength]⟩

end Transport

namespace Channel

def unread (channel : Channel) : Bytes := channel.readAhead ++ channel.transport.upcoming

theorem unread_eq (channel : Channel) : channel.unread = channel.source.upcoming :=
  (Transport.upcoming_putBack _ _).symm

theorem unread_raw {channel : Channel} {stream : Stream} (h : channel.transport = .raw stream) :
    channel.unread = channel.readAhead ++ stream.unread := by
  rw [unread, h, Transport.upcoming_raw]

/-- Reading ahead leaves what is unread. If it succeeds, so many octets are read ahead; if it fails, nothing but the
transport and what was read ahead has changed. -/
theorem fill_unread (n : Nat) (channel : Channel) : ∃ transport readAhead,
    ({ channel with transport, readAhead } : Channel).unread = channel.unread ∧
      (fill n channel = .ok () { channel with transport, readAhead } ∧ n ≤ readAhead.length ∨
        ∃ err, fill n channel = .error err { channel with transport, readAhead }) := by
  obtain ⟨hstate, -⟩ := Transport.upcoming_ahead n channel.source
  obtain ⟨transport, readAhead, ⟨hfill, hlen, hahead⟩ | ⟨err, hfill, hahead⟩⟩ := fill_ahead n channel
  · rw [hahead, ← unread_eq] at hstate
    exact ⟨transport, readAhead, (Transport.upcoming_putBack _ _).symm.trans hstate, .inl ⟨hfill, hlen⟩⟩
  · rw [hahead, ← unread_eq] at hstate
    exact ⟨transport, readAhead, (Transport.upcoming_putBack _ _).symm.trans hstate, .inr ⟨err, hfill⟩⟩

/-- What consuming octets does to a channel: they stood in front of what is left, and a capture that runs has them. -/
structure Consumes (channel : Channel) (taken : Bytes) (last : Channel) : Prop where
  unread : channel.unread = taken ++ last.unread
  captured : last.captured = channel.captured.map (· ++ taken)
  pending : last.pending = channel.pending

theorem Consumes.refl (channel : Channel) : channel.Consumes [] channel :=
  ⟨rfl, by cases channel.captured <;> simp, rfl⟩

theorem Consumes.trans {first middle last : Channel} {taken more : Bytes} (h : first.Consumes taken middle)
    (h' : middle.Consumes more last) : first.Consumes (taken ++ more) last where
  unread := by rw [h.unread, h'.unread, List.append_assoc]
  captured := by
    rw [h'.captured, h.captured]
    cases first.captured <;> simp
  pending := h'.pending.trans h.pending

/-- A read consumes so many octets, or fails and consumes none. -/
theorem read_consumes (n : Nat) (channel : Channel) :
    (∃ bytes last, read n channel = .ok bytes last ∧ bytes.length = n ∧ channel.Consumes bytes last) ∨
    ∃ err last, read n channel = .error err last ∧ channel.Consumes [] last := by
  obtain ⟨transport, readAhead, hunread, ⟨hfill, hlen⟩ | ⟨err, hfill⟩⟩ := fill_unread n channel
  · refine .inl ⟨readAhead.take n, _, bind_of_ok hfill, List.length_take_of_le hlen, ?_, rfl, rfl⟩
    rw [← hunread, Channel.unread, Channel.unread, ← List.append_assoc, List.take_append_drop]
  · exact .inr ⟨err, _, bind_of_error hfill, hunread.symm, (Consumes.refl channel).captured, rfl⟩

/-- What a channel over a bare stream holds is what it has unread. -/
theorem Holds.unread_raw {channel base : Channel} {current later : Bytes} {stream : Stream}
    (h : channel.Holds base current later) (hraw : base.transport = .raw stream) :
    channel.unread = current ++ later := by
  obtain ⟨front, frames, hs, rfl, hcarries⟩ := h
  obtain rfl : frames = [] := hcarries.eq_nil (by rw [hraw]; exact nofun)
  have hsource : channel.source = base.transport.holding front later := congrArg Channel.transport hs
  rw [unread_eq, hsource, hraw, Transport.holding, Transport.upcoming_raw, List.flatten_nil, List.append_nil]

theorem holds_unread {channel : Channel} {stream : Stream} (h : channel.transport = .raw stream) :
    channel.Holds channel channel.unread [] := by
  refine .of_settled ?_
  rw [settled, holding, h, Transport.putBack, Transport.holding, List.append_nil, unread_raw h]

end Channel
end RpcWire
