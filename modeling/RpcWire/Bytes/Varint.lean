import RpcWire.Bytes.Word

/-! Base-128 numbers: seven bits to an octet, lowest group first, the high bit set on all but the last. -/
namespace RpcWire.Varint

/-- The groups of `n`, the fewest that hold it. -/
def encode (n : Nat) : Bytes :=
  if n < 128 then [UInt8.ofNat n] else UInt8.ofNat (n % 128 + 128) :: encode (n / 128)

/-- Whether more groups follow this octet. -/
def continues (byte : UInt8) : Bool :=
  128 ≤ byte

/-- The number that the low seven bits of `groups` spell, whatever their high bits say. -/
def value : Bytes → Nat
  | [] => 0
  | byte :: rest => byte.toNat % 128 + 128 * value rest

theorem value_encode (n : Nat) : value (encode n) = n := by
  induction n using Nat.strongRecOn with
  | ind n ih =>
    rw [encode]
    split
    · simp only [value, UInt8.toNat_ofNat']; omega
    · simp only [value, UInt8.toNat_ofNat', ih (n / 128) (by omega)]; omega

end RpcWire.Varint
