/-! Hexadecimal spellings of naturals, lower case, after a `0x` mark. -/
namespace RpcWire.Hex

/-- The digits of `n` with at least `width` places, zeros in front. -/
def digits (width n : Nat) : String :=
  let shown := Nat.toDigits 16 n
  String.ofList (List.replicate (width - shown.length) '0' ++ shown)

/-- The digits of `n` after the mark. -/
def marked (width n : Nat) : String :=
  "0x" ++ digits width n

end RpcWire.Hex
