import RpcWire.Text.CaseTable

/-! Lower-case text. One character becomes two, and one looks at its neighbours; all others are mapped one by
one. -/
namespace RpcWire.Lowercase

def isCased (c : Char) : Bool := CaseTable.within CaseTable.cased c.toNat

def isIgnorable (c : Char) : Bool := CaseTable.within CaseTable.ignorable c.toNat

/-- The lower-case form of a character by itself. A dotted capital I keeps its dot as a mark of its own. -/
def ofChar (c : Char) : List Char :=
  if c.toNat < 128 then [c.toLower]
  else if c = '\u0130' then ['i', '\u0307']
  else match CaseTable.lowering.find? (·.covers c.toNat) with
    | none => [c]
    | some run => [Char.ofNat (c.toNat + run.shift).toNat]

/-- Whether the first character that is not passed over has case. -/
def startsCased (text : List Char) : Bool :=
  match text.dropWhile isIgnorable with
  | [] => false
  | c :: _ => isCased c

/-- A capital sigma takes its final form at the end of a word: after a character with case and before none.
`before` lists the characters in front, the nearest first. -/
def sigma (before after : List Char) : Char :=
  if startsCased before && !startsCased after then 'ς' else 'σ'

/-- The lower-case form of a text that stands after `before`, the nearest character first. -/
def ofListAfter (before : List Char) : List Char → List Char
  | [] => []
  | c :: rest =>
    (if c = 'Σ' then [sigma before rest] else ofChar c) ++ ofListAfter (c :: before) rest

def ofList (text : List Char) : List Char := ofListAfter [] text

def ofString (text : String) : String := String.ofList (ofList text.toList)

end RpcWire.Lowercase
