import RpcWire.Proofs.Groups

/-! Signed numbers of the compact encoding. Those of 16 and of 32 bits are what their octets spell, or are refused;
of those of 64 bits, what the tenth octet has beyond them is cut off. -/
namespace RpcWire

namespace Zigzag

/-- Naturals below twice a bound stand for the numbers from minus the bound up to it. -/
theorem decode_range {n bound : Nat} (h : n < 2 * bound) : -(bound : Int) ≤ decode n ∧ decode n < bound := by
  unfold decode
  split <;> simp only [Int.ofNat_eq_natCast, Int.negSucc_eq] <;> omega

private theorem toInt_decode32 {n : UInt32} : (decode32 n).toInt = decode n.toNat := by
  have hlt := n.toNat_lt
  have hrange := @decode_range n.toNat 2147483648 (by omega)
  exact Int32.toInt_ofInt_of_le (by simpa using hrange.1) (by simpa using hrange.2)

private theorem toInt_decode64 {n : UInt64} : (decode64 n).toInt = decode n.toNat := by
  have hlt := n.toNat_lt
  have hrange := @decode_range n.toNat 9223372036854775808 (by omega)
  exact Int64.toInt_ofInt_of_le (by simpa using hrange.1) (by simpa using hrange.2)

end Zigzag

namespace Compact

/-- The signed number that the octets spell in so many bits, provided it fits. -/
def spelled (bits : Nat) (Fits : Int → Prop) [DecidablePred Fits] (taken : Bytes) : Option Int :=
  if Varint.value taken < 2 ^ bits ∧ Fits (Zigzag.decode (Varint.value taken)) then
    some (Zigzag.decode (Varint.value taken))
  else none

/-- Octets that spell the same number differ in groups of zeros at the end at most. -/
theorem sameButZeros_of_spelled {bits : Nat} {Fits : Int → Prop} [DecidablePred Fits] {taken taken' : Bytes} {n : Int}
    (h : spelled bits Fits taken = some n) (h' : spelled bits Fits taken' = some n) :
    Varint.SameButZeros taken taken' := by
  unfold spelled at h h'
  split at h
  · split at h'
    · apply Varint.sameButZeros_of_value
      rw [← Zigzag.encode_decode (Varint.value taken), ← Zigzag.encode_decode (Varint.value taken'),
        Option.some.inj h, Option.some.inj h']
    · cases h'
  · cases h

private theorem readsNumber_varint (most : Nat) :
    ReadsNumber most (fun taken => some (Varint.value taken)) id (readVarint most) :=
  (readsNumber_groups most most).bind (fun _ _ h => .inl ⟨_, rfl, congrArg (Option.map Varint.value) h⟩) nofun

/-- Only what fits in 32 bits is read as a word. -/
theorem readsNumber_varint32 :
    ReadsNumber 5 (fun taken => if Varint.value taken < 2 ^ 32 then some (Varint.value taken) else none) UInt32.toNat
      readVarint32 := by
  refine (readsNumber_varint 5).bind (fun taken value h => ?_) nofun
  obtain rfl : Varint.value taken = value := Option.some.inj h
  by_cases hlt : Varint.value taken < 2 ^ 32
  · left
    refine ⟨UInt32.ofNat (Varint.value taken), if_neg (Nat.not_le.mpr hlt), ?_⟩
    rw [if_pos hlt, UInt32.toNat_ofNat_of_lt' hlt]
  · exact .inr ⟨_, if_pos (Nat.le_of_not_lt hlt), if_neg hlt⟩

private theorem readsNumber_i32 : ReadsNumber 5 (spelled 32 fun _ => True) Int32.toInt readI32 := by
  refine readsNumber_varint32.bind (fun taken value h => .inl ⟨Zigzag.decode32 value, rfl, ?_⟩) fun taken h => ?_
  · split at h
    · next hlt => rw [spelled, if_pos ⟨hlt, trivial⟩, Option.some.inj h, Zigzag.toInt_decode32]
    · cases h
  · split at h
    · cases h
    · next hnot => exact if_neg fun hfits => hnot hfits.1

private theorem readsNumber_i16 :
    ReadsNumber 5 (spelled 32 fun n => -32768 ≤ n ∧ n < 32768) Int16.toInt readI16 := by
  refine readsNumber_varint32.bind (fun taken value h => ?_) fun taken h => ?_
  · split at h
    · next hlt =>
      have hvalue := Option.some.inj h
      have hlow : (-32768 : Int32).toInt = -32768 := rfl
      have hhigh : (32767 : Int32).toInt = 32767 := rfl
      simp only [Int32.lt_iff_toInt_lt, Zigzag.toInt_decode32, hlow, hhigh]
      by_cases hfits : -32768 ≤ Zigzag.decode value.toNat ∧ Zigzag.decode value.toNat < 32768
      · left
        refine ⟨(Zigzag.decode32 value).toInt16, if_neg (by omega), ?_⟩
        rw [spelled, hvalue, if_pos ⟨hvalue ▸ hlt, hfits⟩, Int32.toInt_toInt16, Zigzag.toInt_decode32,
          Int.bmod_eq_of_le (by omega) (by omega)]
      · right
        refine ⟨.notI16 (Zigzag.decode32 value), if_pos (by omega), ?_⟩
        rw [spelled, hvalue, if_neg fun h => hfits h.2]
    · cases h
  · split at h
    · cases h
    · next hnot => exact if_neg fun hfits => hnot hfits.1

private theorem readsNumber_varint64 :
    ReadsNumber 10 (fun taken => some (Varint.value taken % 2 ^ 64)) UInt64.toNat
    readVarint64 := by
  refine (readsNumber_varint 10).bind (fun taken value h => .inl ⟨_, rfl, ?_⟩) nofun
  rw [Option.some.inj h, UInt64.toNat_ofNat']
  rfl

private theorem readsNumber_i64 :
    ReadsNumber 10 (fun taken => some (Zigzag.decode (Varint.value taken % 2 ^ 64))) Int64.toInt
    readI64 := by
  refine readsNumber_varint64.bind (fun taken value h => .inl ⟨Zigzag.decode64 value, rfl, ?_⟩) nofun
  rw [Option.some.inj h, Zigzag.toInt_decode64]

/-- Numbers of 64 bits are read as spelled wherever the octets of the answer spell one below `2 ^ 64`. -/
theorem numberRead_i64_iff (codec : Compact) (channel : Channel) :
    NumberRead 10 (spelled 64 fun _ => True) Int64.toInt codec channel (readI64 ⟨codec, channel⟩) ↔
      ∀ taken value last, readI64 ⟨codec, channel⟩ = .ok value ⟨codec, last⟩ → channel.Passes taken last →
        Varint.Ended taken → Varint.value taken < 2 ^ 64 := by
  constructor
  · intro hexact taken value last hread hpass hended
    rw [hread] at hexact
    cases hexact with
    | made hended' _ hpass' hmade =>
      obtain rfl := hended'.eq_of_append hended (hpass'.1.unread.symm.trans hpass.1.unread)
      unfold spelled at hmade
      split at hmade
      · next hfits => exact hfits.1
      · cases hmade
  · intro hbelow
    have hread := readsNumber_i64 codec channel
    generalize readI64 ⟨codec, channel⟩ = result at hread hbelow ⊢
    cases hread with
    | made hended hlen hpass hmade =>
      have hlt := hbelow _ _ _ rfl hpass hended
      rw [Nat.mod_eq_of_lt hlt] at hmade
      exact .made hended hlen hpass ((if_pos ⟨hlt, trivial⟩).trans hmade)
    | refused _ _ _ h => cases h
    | long hgoing hlen hpass => exact .long hgoing hlen hpass
    | short hgoing hlen hpass hfew hread => exact .short hgoing hlen hpass hfew hread

/-- Whatever comes, 16 and 32 bits are read as the octets spell them, or refused. With 64 bits every number of ten
octets is taken for what is left of it below `2 ^ 64`, so it is read as spelled only where nothing is cut. What spells
the same number twice differs in zeros only. -/
theorem signed_numbers_read (codec : Compact) (channel : Channel) :
    NumberRead 5 (spelled 32 fun n => -32768 ≤ n ∧ n < 32768) Int16.toInt codec channel (readI16 ⟨codec, channel⟩) ∧
    NumberRead 5 (spelled 32 fun _ => True) Int32.toInt codec channel (readI32 ⟨codec, channel⟩) ∧
    NumberRead 10 (fun taken => some (Zigzag.decode (Varint.value taken % 2 ^ 64))) Int64.toInt codec channel
      (readI64 ⟨codec, channel⟩) ∧
    (NumberRead 10 (spelled 64 fun _ => True) Int64.toInt codec channel (readI64 ⟨codec, channel⟩) ↔
      ∀ taken value last, readI64 ⟨codec, channel⟩ = .ok value ⟨codec, last⟩ → channel.Passes taken last →
        Varint.Ended taken → Varint.value taken < 2 ^ 64) ∧
    ∀ (bits : Nat) (Fits : Int → Prop) [DecidablePred Fits] (taken taken' : Bytes) (n : Int),
      spelled bits Fits taken = some n → spelled bits Fits taken' = some n → Varint.SameButZeros taken taken' :=
  ⟨readsNumber_i16 codec channel, readsNumber_i32 codec channel, readsNumber_i64 codec channel,
    numberRead_i64_iff codec channel, fun _ _ _ _ _ _ => sameButZeros_of_spelled⟩

/-- Ten octets that spell `2 ^ 64`. -/
def wide : Bytes := List.replicate 9 0x80 ++ [0x02]

private theorem ended_wide : Varint.Ended wide := by
  have hmore : Varint.continues 0x80 = true := rfl
  exact .more hmore (.more hmore (.more hmore (.more hmore (.more hmore (.more hmore (.more hmore (.more hmore
    (.more hmore (.last rfl)))))))))

def wideInput : Channel := { transport := .raw { unread := wide } }

private theorem wideInput_holds : wideInput.Holds wideInput (wide ++ []) [] := by
  have hall : wideInput.Holds wideInput wideInput.unread [] := Channel.holds_unread rfl
  rwa [Channel.unread_raw (by rfl : wideInput.transport = .raw { unread := wide })] at hall

/-- They are read as zero, so numbers of 64 bits are not read as spelled. -/
theorem wide_read_as_zero :
    (∃ last, readI64 ⟨{}, wideInput⟩ = .ok 0 last) ∧ Varint.value wide = 2 ^ 64 ∧
      ¬ReadsNumber 10 (spelled 64 fun _ => True) Int64.toInt readI64 := by
  have hvalue : Varint.value wide = 2 ^ 64 := by decide
  have hlen : wide.length ≤ 10 := by decide
  obtain ⟨last, -, ⟨value, hread, hmade⟩ | ⟨flaw, -, hmade⟩⟩ :=
    readsNumber_i64.of_ended {} ended_wide hlen wideInput_holds
  · have hzero : value = 0 := by
      rw [hvalue] at hmade
      exact Int64.toInt_inj.mp (Option.some.inj hmade).symm
    refine ⟨⟨_, hzero ▸ hread⟩, hvalue, fun hexact => ?_⟩
    obtain ⟨last', -, ⟨value', -, hmade'⟩ | ⟨flaw', hread', -⟩⟩ := hexact.of_ended {} ended_wide hlen wideInput_holds
    · rw [spelled, hvalue] at hmade'
      cases hmade'
    · rw [hread] at hread'
      cases hread'
  · cases hmade

end Compact
end RpcWire
