/-! Digits of numbers in base sixteen and below, in either case. -/
namespace RpcWire.Digit

def isDecimal (c : Char) : Bool := '0' ≤ c && c ≤ '9'

def isHexadecimal (c : Char) : Bool :=
  isDecimal c || ('a' ≤ c && c ≤ 'f') || ('A' ≤ c && c ≤ 'F')

/-- The worth of a digit. -/
def value (c : Char) : Nat :=
  if c ≤ '9' then c.toNat - '0'.toNat
  else if c ≤ 'F' then c.toNat - 'A'.toNat + 10
  else c.toNat - 'a'.toNat + 10

/-- The number that a row of digits spells. -/
def number (base : Nat) (digits : List Char) : Nat :=
  digits.foldl (fun sum c => sum * base + value c) 0

/-- The number that a text spells, if it holds digits of the base only and at least one. -/
def number? (base : Nat) (text : List Char) : Option Nat :=
  if text ≠ [] ∧ text.all (fun c => isHexadecimal c && value c < base) then some (number base text) else none

end RpcWire.Digit
