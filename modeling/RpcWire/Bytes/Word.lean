/-! Machine words as bytes. One pair of functions on naturals serves every width and both byte orders. -/
namespace RpcWire

/-- A run of octets, first octet first. -/
abbrev Bytes := List UInt8

namespace Bytes

/-- The lowest `width` octets of `n`, most significant first. -/
def bigEndian : Nat → Nat → Bytes
  | 0, _ => []
  | width + 1, n => bigEndian width (n / 256) ++ [UInt8.ofNat (n % 256)]

/-- The lowest `width` octets of `n`, least significant first. -/
def littleEndian (width n : Nat) : Bytes :=
  (bigEndian width n).reverse

/-- The natural that `bytes` spells in base 256, most significant octet first. -/
def toNat (bytes : Bytes) : Nat :=
  bytes.foldl (fun value byte => value * 256 + byte.toNat) 0

@[simp] theorem length_bigEndian (width n : Nat) : (bigEndian width n).length = width := by
  induction width generalizing n with
  | zero => rfl
  | succ width ih => simp [bigEndian, ih]

@[simp] theorem length_littleEndian (width n : Nat) : (littleEndian width n).length = width := by
  simp [littleEndian]

/-- Reading back what was written gives the number, less what the width cannot hold. -/
theorem toNat_bigEndian (width n : Nat) : toNat (bigEndian width n) = n % Nat.pow 256 width := by
  induction width generalizing n with
  | zero => simp [bigEndian, toNat, Nat.pow, Nat.mod_one]
  | succ width ih =>
    have step : toNat (bigEndian width (n / 256) ++ [UInt8.ofNat (n % 256)]) =
        toNat (bigEndian width (n / 256)) * 256 + n % 256 := by
      simp [toNat, List.foldl_append]
    have power : Nat.pow 256 (width + 1) = 256 * Nat.pow 256 width := Nat.mul_comm _ _
    rw [bigEndian, step, ih, power, Nat.mod_mul, Nat.mul_comm, Nat.add_comm]

end Bytes
end RpcWire
