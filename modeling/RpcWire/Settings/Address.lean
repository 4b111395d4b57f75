import RpcWire.Text.Digit
import RpcWire.Text.Hex

/-! Addresses of sockets as text: four numbers between dots, or groups of hexadecimal digits in brackets, then
a port. -/
namespace RpcWire

/-- Where a host is reached. A zone of zero is not shown. -/
inductive HostAddress where
  | v4 (a b c d : UInt8)
  | v6 (groups : Vector UInt16 8) (zone : UInt32)
  deriving DecidableEq

structure SocketAddress where
  host : HostAddress
  port : UInt16
  deriving DecidableEq

namespace SocketAddress

/-- The port used where no other is given. -/
def usualPort : UInt16 := 9090

/-- This host, at the usual port. -/
def loopback : SocketAddress := ⟨.v4 127 0 0 1, usualPort⟩

/-! ## Reading -/

/-- What is read from the front of a text, and what follows it. -/
abbrev Parser (α : Type) := StateT (List Char) Option α

def mark (c : Char) : Parser Unit := fun text =>
  match text with
  | first :: rest => if first = c then some ((), rest) else none
  | [] => none

/-- How a number is written. -/
structure NumberFormat where
  base : Nat
  /-- The most digits. -/
  width : Option Nat
  /-- Whether more digits may follow a zero in front. -/
  zeroInFront : Bool
  largest : Nat

def octet : NumberFormat := ⟨10, some 3, false, 255⟩
def group : NumberFormat := ⟨16, some 4, true, 65535⟩
def portNumber : NumberFormat := ⟨10, none, true, 65535⟩
def zoneNumber : NumberFormat := ⟨10, none, true, 4294967295⟩

def number (format : NumberFormat) : Parser Nat := fun text =>
  let isDigit := if format.base = 16 then Digit.isHexadecimal else Digit.isDecimal
  let digits := text.takeWhile isDigit
  let value := Digit.number format.base digits
  if digits = [] then none
  else if format.width.any (· < digits.length) then none
  else if !format.zeroInFront && digits.head? == some '0' && 1 < digits.length then none
  else if format.largest < value then none
  else some (value, text.dropWhile isDigit)

def v4 : Parser (UInt8 × UInt8 × UInt8 × UInt8) := do
  let a ← number octet
  mark '.'
  let b ← number octet
  mark '.'
  let c ← number octet
  mark '.'
  let d ← number octet
  return (.ofNat a, .ofNat b, .ofNat c, .ofNat d)

/-- `item`, after a colon unless it is the first of its row. -/
def separated {α : Type} (first : Bool) (item : Parser α) : Parser α := do
  unless first do mark ':'
  item

/-- At most `left` groups in a row, whether the last two stand as four numbers between dots, and what
follows. -/
def groups : Nat → Bool → List Char → List UInt16 × Bool × List Char
  | 0, _, text => ([], false, text)
  | left + 1, first, text =>
    match if 0 < left then separated first v4 text else none with
    | some ((a, b, c, d), rest) =>
      ([UInt16.ofNat (a.toNat * 256 + b.toNat), UInt16.ofNat (c.toNat * 256 + d.toNat)], true, rest)
    | none =>
      match separated first (number group) text with
      | none => ([], false, text)
      | some (value, rest) =>
        let (more, dotted, rest) := groups left false rest
        (UInt16.ofNat value :: more, dotted, rest)

/-- Eight groups, or fewer with one gap of zeros, which two colons mark. -/
def v6 : Parser (Vector UInt16 8) := fun text =>
  let (front, dotted, rest) := groups 8 true text
  let all := if front.length = 8 then some (front, rest)
    else if dotted then none
    else match rest with
      | ':' :: ':' :: rest =>
        let (back, _, rest) := groups (7 - front.length) true rest
        some (front ++ List.replicate (8 - front.length - back.length) 0 ++ back, rest)
      | _ => none
  all.bind fun (list, rest) =>
    if size : list.toArray.size = 8 then some (⟨list.toArray, size⟩, rest) else none

/-- A zone, where one is named. -/
def zone : Parser Nat := fun text =>
  match (do mark '%'; number zoneNumber : Parser Nat) text with
  | some found => some found
  | none => some (0, text)

def parser : Parser SocketAddress := fun text =>
  let dotted : Parser SocketAddress := do
    let (a, b, c, d) ← v4
    mark ':'
    return ⟨.v4 a b c d, .ofNat (← number portNumber)⟩
  let bracketed : Parser SocketAddress := do
    mark '['
    let groups ← v6
    let zone ← zone
    mark ']'
    mark ':'
    return ⟨.v6 groups (.ofNat zone), .ofNat (← number portNumber)⟩
  (dotted text).or (bracketed text)

/-- The address that the whole text spells. -/
def ofText? (text : String) : Option SocketAddress :=
  match parser text.toList with
  | some (address, []) => some address
  | _ => none

/-! ## Writing -/

def dotted (a b c d : UInt8) : String :=
  s!"{a}.{b}.{c}.{d}"

/-- Where the longest run of zeros starts and how long it is; of equal runs the first one counts. `current` is the
run that ends in front of `index`. -/
def longestZeros (index : Nat) (current longest : Nat × Nat) : List UInt16 → Nat × Nat
  | [] => longest
  | value :: rest =>
    if value = 0 then
      let current := (if current.2 = 0 then index else current.1, current.2 + 1)
      longestZeros (index + 1) current (if longest.2 < current.2 then current else longest) rest
    else longestZeros (index + 1) (0, 0) longest rest

def groupsText (groups : List UInt16) : String :=
  ":".intercalate (groups.map fun group => Hex.digits 1 group.toNat)

/-- Two colons stand for the longest run of zeros, if it has more than one. An address that stands for four
numbers shows them. -/
def v6Text (groups : List UInt16) : String :=
  match groups with
  | [0, 0, 0, 0, 0, 0xffff, high, low] =>
    "::ffff:" ++ dotted (high >>> 8).toUInt8 high.toUInt8 (low >>> 8).toUInt8 low.toUInt8
  | _ =>
    let (start, length) := longestZeros 0 (0, 0) (0, 0) groups
    if 1 < length then
      groupsText (groups.take start) ++ "::" ++ groupsText (groups.drop (start + length))
    else groupsText groups

def text (address : SocketAddress) : String :=
  match address.host with
  | .v4 a b c d => dotted a b c d ++ s!":{address.port}"
  | .v6 groups zone =>
    "[" ++ v6Text groups.toList ++ (if zone = 0 then "" else s!"%{zone}") ++ s!"]:{address.port}"

end SocketAddress
end RpcWire
