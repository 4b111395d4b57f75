import RpcWire.Proofs.Layout.CodecReading
import RpcWire.Proofs.Unread

/-! Which octets make up one base-128 number, and what a reader of such numbers makes of whatever comes: it takes one
number that has ended, or as many octets as it may without an end, or all that the channel gives. -/
namespace RpcWire

namespace Varint

/-- Octets each of which announces another. -/
def Going (bytes : Bytes) : Prop := ∀ byte ∈ bytes, continues byte = true

/-- The octets of one number: the last alone announces no other. -/
inductive Ended : Bytes → Prop where
  | last {byte : UInt8} (h : continues byte = false) : Ended [byte]
  | more {byte : UInt8} {rest : Bytes} (h : continues byte = true) (hrest : Ended rest) : Ended (byte :: rest)

theorem going_nil : Going [] := fun _ h => nomatch h

theorem Going.cons {byte : UInt8} {rest : Bytes} (h : continues byte = true) (hrest : Going rest) :
    Going (byte :: rest) :=
  List.forall_mem_cons.mpr ⟨h, hrest⟩

/-- No number stands at the front of octets that all go on. -/
theorem Ended.not_going {bytes rest : Bytes} (h : Ended bytes) : ¬Going (bytes ++ rest) := by
  induction h with
  | last h =>
    intro hall
    have hfirst := hall _ List.mem_cons_self
    rw [h] at hfirst
    cases hfirst
  | more _ _ ih => exact fun hall => ih (List.forall_mem_cons.mp hall).2

/-- Where one number ends does not depend on what follows. -/
theorem Ended.eq_of_append {bytes bytes' rest rest' : Bytes} (h : Ended bytes) (h' : Ended bytes')
    (heq : bytes ++ rest = bytes' ++ rest') : bytes = bytes' := by
  induction h generalizing bytes' with
  | last hlast =>
    cases h' with
    | last _ =>
      cases heq
      rfl
    | more hmore _ =>
      cases heq
      rw [hlast] at hmore
      cases hmore
  | more hmore _ ih =>
    cases h' with
    | last hlast =>
      cases heq
      rw [hlast] at hmore
      cases hmore
    | more _ hrest =>
      obtain ⟨rfl, hrests⟩ := List.cons.inj heq
      rw [ih hrest hrests]

def groups (bytes : Bytes) : List Nat := bytes.map (·.toNat % 128)

def SameButZeros (bytes bytes' : Bytes) : Prop :=
  ∃ zeros, groups bytes = groups bytes' ++ List.replicate zeros 0 ∨ groups bytes' = groups bytes ++ List.replicate zeros 0

private theorem groups_of_value_zero {bytes : Bytes} (h : value bytes = 0) :
    groups bytes = List.replicate bytes.length 0 := by
  induction bytes with
  | nil => rfl
  | cons byte rest ih =>
    simp only [value] at h
    rw [groups, List.map_cons, List.length_cons, List.replicate_succ, (by omega : byte.toNat % 128 = 0)]
    exact congrArg _ (ih (by omega))

/-- Octets that spell the same number differ in groups of zeros at the end at most. -/
theorem sameButZeros_of_value {bytes bytes' : Bytes} (h : value bytes = value bytes') : SameButZeros bytes bytes' := by
  induction bytes generalizing bytes' with
  | nil => exact ⟨bytes'.length, .inr (by rw [groups_of_value_zero h.symm]; rfl)⟩
  | cons byte rest ih =>
    cases bytes' with
    | nil => exact ⟨(byte :: rest).length, .inl (by rw [groups_of_value_zero h]; rfl)⟩
    | cons byte' rest' =>
      simp only [value] at h
      have hbyte : byte.toNat % 128 = byte'.toNat % 128 := by omega
      obtain ⟨zeros, hrest⟩ := @ih rest' (by omega)
      refine ⟨zeros, hrest.imp (fun hrest => ?_) fun hrest => ?_⟩ <;>
        simp only [groups, List.map_cons, List.cons_append, hbyte] at hrest ⊢ <;> rw [hrest]

end Varint

namespace Channel

/-- What moving on over octets does to a channel: it has consumed them, and whatever it held behind them it still
holds. -/
def Passes (channel : Channel) (taken : Bytes) (last : Channel) : Prop :=
  channel.Consumes taken last ∧
    ∀ ⦃base : Channel⦄ ⦃rest later : Bytes⦄, channel.Holds base (taken ++ rest) later → last.Holds base rest later

private theorem Passes.refl (channel : Channel) : channel.Passes [] channel := ⟨.refl channel, fun _ _ _ h => h⟩

private theorem Passes.trans {first middle last : Channel} {taken more : Bytes} (h : first.Passes taken middle)
    (h' : middle.Passes more last) : first.Passes (taken ++ more) last :=
  ⟨h.1.trans h'.1, fun _ _ _ hs => h'.2 (h.2 (by rwa [List.append_assoc] at hs))⟩

/-- A read passes over the octets that it gives. -/
theorem passes_of_read {n : Nat} {channel last : Channel} {bytes : Bytes} (h : read n channel = .ok bytes last) :
    bytes.length = n ∧ channel.Passes bytes last := by
  rcases read_consumes n channel with ⟨bytes', last', hread, hlen, hc⟩ | ⟨err, last', hread, -⟩
  · rw [h] at hread
    cases hread
    refine ⟨hlen, hc, fun base rest later hs => ?_⟩
    obtain ⟨after, hread, hafter⟩ := hs.read_bytes
    rw [hlen, h] at hread
    cases hread
    exact hafter
  · rw [h] at hread
    cases hread

/-- One octet is passed over, or the channel gives none. -/
theorem readByte_cases (channel : Channel) :
    (∃ byte last, readByte channel = .ok byte last ∧ channel.Passes [byte] last) ∨
      ∃ err last, readByte channel = .error err last := by
  cases hread : read 1 channel with
  | error err last => exact .inr ⟨err, last, bind_of_error hread⟩
  | ok bytes last =>
    obtain ⟨hlen, hpass⟩ := passes_of_read hread
    obtain ⟨byte, rfl⟩ := List.length_eq_one_iff.mp hlen
    exact .inl ⟨byte, last, bind_of_ok hread, hpass⟩

/-- What a channel holds is what stands in front of all that is unread. -/
theorem Holds.prefix_unread {channel base : Channel} {current later : Bytes} (h : channel.Holds base current later) :
    ∃ rest, channel.unread = current ++ rest := by
  rw [← List.append_nil current] at h
  obtain ⟨after, hread, -⟩ := h.read_bytes
  exact ⟨after.unread, (passes_of_read hread).2.1.unread⟩

def HoldsNoMore (channel : Channel) (taken : Bytes) : Prop :=
  ∀ ⦃base : Channel⦄ ⦃current later : Bytes⦄, channel.Holds base current later → current <+: taken

/-- Where the next octet is not given, no more was held than had been passed over. -/
theorem Passes.holdsNoMore {channel middle last : Channel} {taken : Bytes} {err : WireError}
    (h : channel.Passes taken middle) (hfail : readByte middle = .error err last) : channel.HoldsNoMore taken := by
  intro base current later hs
  obtain ⟨rest, hunread⟩ := hs.prefix_unread
  rcases List.prefix_or_prefix_of_prefix ⟨rest, hunread.symm⟩ ⟨middle.unread, h.1.unread.symm⟩ with hle | ⟨more, rfl⟩
  · exact hle
  · cases more with
    | nil => exact ⟨[], by simp⟩
    | cons byte more =>
      have hnext : middle.Holds base ([byte] ++ more) later := h.2 hs
      obtain ⟨after, hread, -⟩ := hnext.read_bytes
      cases hfail.symm.trans (bind_of_ok hread)

end Channel

namespace Compact
open Endpoint
variable {α β γ : Type}

/-- How reading a number of at most `most` octets ends: with what becomes of the octets of one number, with a refusal
where they amount to nothing or go on for too long, or with the failure of a channel that gives too few. -/
inductive NumberRead (most : Nat) (made : Bytes → Option β) (see : α → β) (codec : Compact) (channel : Channel) :
    EStateM.Result WireError (Endpoint Compact) α → Prop where
  | made {taken : Bytes} {last : Channel} {value : α} (hended : Varint.Ended taken) (hlen : taken.length ≤ most)
      (hpass : channel.Passes taken last) (h : made taken = some (see value)) :
      NumberRead most made see codec channel (.ok value ⟨codec, last⟩)
  | refused {taken : Bytes} {last : Channel} {flaw : DataFlaw} (hended : Varint.Ended taken) (hlen : taken.length ≤ most)
      (hpass : channel.Passes taken last) (h : made taken = none) :
      NumberRead most made see codec channel (.error (.invalidData flaw) ⟨codec, last⟩)
  | long {taken : Bytes} {last : Channel} {flaw : DataFlaw} (hgoing : Varint.Going taken) (hlen : taken.length = most)
      (hpass : channel.Passes taken last) :
      NumberRead most made see codec channel (.error (.invalidData flaw) ⟨codec, last⟩)
  | short {taken : Bytes} {middle last : Channel} {err : WireError} (hgoing : Varint.Going taken)
      (hlen : taken.length < most) (hpass : channel.Passes taken middle) (hfew : channel.HoldsNoMore taken)
      (hread : Channel.readByte middle = .error err last) :
      NumberRead most made see codec channel (.error err ⟨codec, last⟩)

/-- Whatever comes, the action reads a number of at most `most` octets. -/
def ReadsNumber (most : Nat) (made : Bytes → Option β) (see : α → β) (act : M α) : Prop :=
  ∀ codec channel, NumberRead most made see codec channel (act ⟨codec, channel⟩)

theorem readsNumber_groups (most left : Nat) : ReadsNumber left some id (readGroups most left) := by
  intro codec channel
  induction left generalizing channel with
  | zero => exact .long Varint.going_nil rfl (.refl channel)
  | succ left ih =>
    rw [readGroups]
    rcases channel.readByte_cases with ⟨byte, middle, hread, hpass⟩ | ⟨err, last, hread⟩
    · rw [Endpoint.readByte, bind_of_ok (channel_ok hread)]
      cases hbyte : Varint.continues byte with
      | false => exact .made (.last hbyte) (by simp) hpass rfl
      | true =>
        simp only [if_true]
        generalize hrest : readGroups most left ⟨codec, middle⟩ = rest
        have hnext := ih middle
        rw [hrest] at hnext
        cases hnext with
        | @made taken last value hended hlen hlater h =>
          cases h
          rw [bind_of_ok hrest]
          exact .made (.more hbyte hended) (by simpa using hlen) (hpass.trans hlater) rfl
        | refused _ _ _ h => cases h
        | long hgoing hlen hlater =>
          rw [bind_of_error hrest]
          exact .long (hgoing.cons hbyte) (by simpa using hlen) (hpass.trans hlater)
        | short hgoing hlen hlater _ hread =>
          rw [bind_of_error hrest]
          have hall := hpass.trans hlater
          exact .short (hgoing.cons hbyte) (by simpa using hlen) hall (hall.holdsNoMore hread) hread
    · rw [Endpoint.readByte, bind_of_error (channel_error hread)]
      have hnone := Channel.Passes.refl channel
      exact .short Varint.going_nil (Nat.succ_pos left) hnone (hnone.holdsNoMore hread) hread

/-- A number read may be turned into another, or refused. -/
theorem ReadsNumber.bind {most : Nat} {made : Bytes → Option β} {made' : Bytes → Option γ} {δ : Type} {see : α → β}
    {see' : δ → γ} {act : M α} {next : α → M δ} (h : ReadsNumber most made see act)
    (hnext : ∀ taken value, made taken = some (see value) →
      (∃ result, next value = pure result ∧ made' taken = some (see' result)) ∨
        ∃ flaw, next value = throw (.invalidData flaw) ∧ made' taken = none)
    (hnone : ∀ taken, made taken = none → made' taken = none) : ReadsNumber most made' see' (act >>= next) := by
  intro codec channel
  generalize hact : act ⟨codec, channel⟩ = first
  have hfirst := h codec channel
  rw [hact] at hfirst
  cases hfirst with
  | made hended hlen hpass hmade =>
    rw [bind_of_ok hact]
    obtain ⟨result, hres, hmade'⟩ | ⟨flaw, hres, hmade'⟩ := hnext _ _ hmade
    · rw [hres]
      exact .made hended hlen hpass hmade'
    · rw [hres]
      exact .refused hended hlen hpass hmade'
  | refused hended hlen hpass hmade =>
    rw [bind_of_error hact]
    exact .refused hended hlen hpass (hnone _ hmade)
  | long hgoing hlen hpass =>
    rw [bind_of_error hact]
    exact .long hgoing hlen hpass
  | short hgoing hlen hpass hfew hread =>
    rw [bind_of_error hact]
    exact .short hgoing hlen hpass hfew hread

/-- One number that is held is read whole, and the action gives what becomes of it. -/
theorem ReadsNumber.of_ended {most : Nat} {made : Bytes → Option β} {see : α → β} {act : M α}
    (h : ReadsNumber most made see act) (codec : Compact) {channel base : Channel} {taken rest later : Bytes}
    (hended : Varint.Ended taken) (hlen : taken.length ≤ most) (hs : channel.Holds base (taken ++ rest) later) :
    ∃ last, last.Holds base rest later ∧
      ((∃ value, act ⟨codec, channel⟩ = .ok value ⟨codec, last⟩ ∧ made taken = some (see value)) ∨
        ∃ flaw, act ⟨codec, channel⟩ = .error (.invalidData flaw) ⟨codec, last⟩ ∧ made taken = none) := by
  obtain ⟨behind, hunread⟩ := hs.prefix_unread
  rw [List.append_assoc] at hunread
  generalize hact : act ⟨codec, channel⟩ = result
  have hread := h codec channel
  rw [hact] at hread
  cases hread with
  | made hended' _ hpass hmade =>
    obtain rfl := hended.eq_of_append hended' (hunread.symm.trans hpass.1.unread)
    exact ⟨_, hpass.2 hs, .inl ⟨_, rfl, hmade⟩⟩
  | refused hended' _ hpass hmade =>
    obtain rfl := hended.eq_of_append hended' (hunread.symm.trans hpass.1.unread)
    exact ⟨_, hpass.2 hs, .inr ⟨_, rfl, hmade⟩⟩
  | @long taken' _ _ hgoing hlen' hpass =>
    obtain ⟨more, rfl⟩ : taken <+: taken' := List.prefix_of_prefix_length_le ⟨_, hunread.symm⟩
      ⟨_, hpass.1.unread.symm⟩ (hlen'.symm ▸ hlen)
    exact absurd hgoing hended.not_going
  | @short taken' _ _ _ hgoing _ _ hfew _ =>
    obtain ⟨more, rfl⟩ : taken <+: taken' := (List.prefix_append taken rest).trans (hfew hs)
    exact absurd hgoing hended.not_going

end Compact
end RpcWire
