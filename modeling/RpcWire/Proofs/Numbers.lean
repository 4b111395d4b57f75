import Mathlib.Algebra.Group.Nat.Defs
import Mathlib.Data.List.Induction
import RpcWire.Codec.Compact
import RpcWire.Text.Utf8

/-! Numbers and texts come back from their octets: words of every width, base-128 numbers, folded signs. -/
namespace RpcWire

namespace Bytes

theorem toNat_bigEndian_of_lt {width n : Nat} (h : n < Nat.pow 256 width) : toNat (bigEndian width n) = n := by
  rw [toNat_bigEndian, Nat.mod_eq_of_lt h]

private theorem toNat_concat (bytes : Bytes) (byte : UInt8) :
    toNat (bytes ++ [byte]) = toNat bytes * 256 + byte.toNat := by
  simp [toNat, List.foldl_append]

theorem toNat_lt (bytes : Bytes) : toNat bytes < Nat.pow 256 bytes.length := by
  induction bytes using List.reverseRecOn with
  | nil => decide
  | append_singleton bytes byte ih =>
    have hbyte : byte.toNat < 256 := byte.toNat_lt
    have hpower : Nat.pow 256 (bytes.length + 1) = Nat.pow 256 bytes.length * 256 := rfl
    rw [toNat_concat, List.length_append, List.length_singleton, hpower]
    omega

/-- Octets come back from the number that they spell. -/
theorem bigEndian_toNat (bytes : Bytes) : bigEndian bytes.length (toNat bytes) = bytes := by
  induction bytes using List.reverseRecOn with
  | nil => rfl
  | append_singleton bytes byte ih =>
    have hbyte : byte.toNat < 256 := byte.toNat_lt
    have hhigh : (toNat bytes * 256 + byte.toNat) / 256 = toNat bytes := by omega
    have hlow : (toNat bytes * 256 + byte.toNat) % 256 = byte.toNat := by omega
    rw [toNat_concat, List.length_append, List.length_singleton, bigEndian, hhigh, hlow, ih, UInt8.ofNat_toNat]

theorem word16 (word : UInt16) : UInt16.ofNat (toNat (bigEndian 2 word.toNat)) = word := by
  rw [toNat_bigEndian_of_lt (by exact word.toNat_lt), UInt16.ofNat_toNat]

theorem word32 (word : UInt32) : UInt32.ofNat (toNat (bigEndian 4 word.toNat)) = word := by
  rw [toNat_bigEndian_of_lt (by exact word.toNat_lt), UInt32.ofNat_toNat]

theorem toNat_reverse_littleEndian {width n : Nat} (h : n < Nat.pow 256 width) :
    toNat (littleEndian width n).reverse = n := by
  rw [littleEndian, List.reverse_reverse, toNat_bigEndian_of_lt h]

end Bytes

namespace Varint

private theorem encode_ne_nil (n : Nat) : encode n ≠ [] := by
  rw [encode]
  split <;> simp

theorem length_encode_pos (n : Nat) : 0 < (encode n).length :=
  List.length_pos_iff.mpr (encode_ne_nil n)

/-- A number of `k` groups of seven bits takes at most so many octets. -/
theorem length_encode_le {k n : Nat} (hk : 0 < k) (h : n < 128 ^ k) : (encode n).length ≤ k := by
  induction k generalizing n with
  | zero => exact absurd hk (Nat.lt_irrefl 0)
  | succ k ih =>
    rw [encode]
    split
    · simp
    · next hn =>
      have hk' : 0 < k := by
        rcases Nat.eq_zero_or_pos k with rfl | hpos
        · simp at h; omega
        · exact hpos
      have hdiv : n / 128 < 128 ^ k := by
        rw [Nat.div_lt_iff_lt_mul (by decide), ← Nat.pow_succ]
        exact h
      simpa using ih hk' hdiv

theorem continues_ofNat {n : Nat} (h : n < 128) : continues (UInt8.ofNat n) = false := by
  simp only [continues, decide_eq_false_iff_not, UInt8.le_iff_toNat_le, UInt8.toNat_ofNat']
  have : (128 : UInt8).toNat = 128 := rfl
  omega

theorem continues_group (n : Nat) : continues (UInt8.ofNat (n % 128 + 128)) = true := by
  simp only [continues, decide_eq_true_eq, UInt8.le_iff_toNat_le, UInt8.toNat_ofNat']
  have : (128 : UInt8).toNat = 128 := rfl
  omega

end Varint

namespace Zigzag

private theorem encode_lt {n : Int} {bound : Nat} (hlow : -bound ≤ n) (hhigh : n < bound) :
    encode n < 2 * bound := by
  cases n with
  | ofNat n => simp only [encode, Int.ofNat_eq_natCast] at *; omega
  | negSucc n => simp only [encode, Int.negSucc_eq] at *; omega

theorem decode32_encode32 (n : Int32) : decode32 (encode32 n) = n := by
  have hlt : encode n.toInt < 2 * 2147483648 := encode_lt (by have := n.le_toInt; omega) (by have := n.toInt_lt; omega)
  rw [decode32, encode32, UInt32.toNat_ofNat_of_lt' (by simpa using hlt), decode_encode, Int32.ofInt_toInt]

theorem decode64_encode64 (n : Int64) : decode64 (encode64 n) = n := by
  have hlt : encode n.toInt < 2 * 9223372036854775808 :=
    encode_lt (by have := n.le_toInt; omega) (by have := n.toInt_lt; omega)
  rw [decode64, encode64, UInt64.toNat_ofNat_of_lt' (by simpa using hlt), decode_encode, Int64.ofInt_toInt]

end Zigzag

theorem Utf8.decode?_encode (text : String) : decode? (encode text) = some text := by
  have hbytes : (encode text).toByteArray = text.toByteArray := by
    rw [encode, String.toUTF8_eq_toByteArray]
    exact ByteArray.ext (by simp)
  have hvalid : text.toByteArray.IsValidUTF8 := text.isValidUTF8
  rw [decode?, hbytes, String.fromUTF8?, dif_pos hvalid]
  rfl

namespace Compact

/-- An octet of two halves gives both back. -/
theorem halves : ∀ high < 16, ∀ low < 16,
    (UInt8.ofNat (high * 16) ||| UInt8.ofNat low) >>> 4 = UInt8.ofNat high ∧
      (UInt8.ofNat (high * 16) ||| UInt8.ofNat low) &&& 0x0f = UInt8.ofNat low := by
  decide

end Compact
end RpcWire
