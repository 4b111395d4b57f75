import RpcWire.Text.Digit

/-! Places in a YAML text. Lines end at a line feed or at a line or paragraph separator; the other ways to end
a line are taken for a line feed beforehand. -/
namespace RpcWire.Yaml

def isBlank (c : Char) : Bool := c = ' ' || c = '\t'

def isBreak (c : Char) : Bool := c = '\n' || c = '\u2028' || c = '\u2029'

def isSpace (c : Char) : Bool := isBlank c || isBreak c

/-- Whether a word that the text follows is complete. -/
def endsWord (text : List Char) : Bool := text.head?.all isSpace

/-- Characters that may stand in a YAML text. -/
def isAllowed (c : Char) : Bool :=
  c = '\t' || c = '\n' || c = '\r' || (' ' ≤ c && c ≤ '~') || c = '\u0085' ||
    (0xa0 ≤ c.toNat && c.toNat ≤ 0xfffd) || 0x10000 ≤ c.toNat

/-- Every end of a line that is a control character becomes a line feed. -/
def unifyBreaks : List Char → List Char
  | [] => []
  | '\r' :: '\n' :: rest => '\n' :: unifyBreaks rest
  | c :: rest => (if c = '\r' ∨ c = '\u0085' then '\n' else c) :: unifyBreaks rest

/-- The characters of a text, if all are allowed. -/
def characters? (text : String) : Option (List Char) :=
  if text.toList.all isAllowed then some (unifyBreaks text.toList) else none

/-- What is left of a text, and where it starts: the octets in front of it, the lines, and the characters of the
line. -/
structure Place where
  rest : List Char
  octets : Nat := 0
  line : Nat := 0
  column : Nat := 0

namespace Place

def next (place : Place) : Place :=
  match place.rest with
  | [] => place
  | c :: rest =>
    let octets := place.octets + c.utf8Size
    if isBreak c then ⟨rest, octets, place.line + 1, 0⟩ else ⟨rest, octets, place.line, place.column + 1⟩

def advance : Nat → Place → Place
  | 0, place => place
  | count + 1, place => advance count place.next

/-- The blanks and breaks ahead. -/
def spaces (place : Place) : List Char := place.rest.takeWhile isSpace

/-- Whether a document starts or ends here: three hyphens or dots by themselves at the start of a line. -/
def atDocumentMark (place : Place) : Bool :=
  place.column == 0 &&
    match place.rest with
    | a :: b :: c :: rest => ([a, b, c] == ['-', '-', '-'] || [a, b, c] == ['.', '.', '.']) && endsWord rest
    | _ => false

end Place
end RpcWire.Yaml
