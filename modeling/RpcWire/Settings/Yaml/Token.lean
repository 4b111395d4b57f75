import RpcWire.Settings.Yaml.Scalar

/-! Tokens of a YAML text. Indentation opens and closes collections, and what stands in front of a colon becomes
a key only when the colon is seen: its mark is then put in front of it. Directives, anchors, aliases, tags and
block scalars are not taken. -/
namespace RpcWire.Yaml

inductive Token where
  | documentStart
  | documentEnd
  | blockSequence
  | blockMapping
  | blockEnd
  | blockEntry
  | openBracket
  | closeBracket
  | openBrace
  | closeBrace
  | flowEntry
  | key
  | value
  /-- The text of a scalar, and whether it stands without quotes. -/
  | scalar (text : String) (plain : Bool)
  deriving DecidableEq

/-- A token that a colon after it would make a key: its number, its place, and whether the colon must come. -/
structure PossibleKey where
  number : Nat
  place : Place
  required : Bool

/-- A key stands on one line and has 1024 octets at most. -/
def PossibleKey.stale (key : PossibleKey) (place : Place) : Bool :=
  key.place.line < place.line || key.place.octets + 1024 < place.octets

/-- A text on its way to tokens. -/
structure Lexing where
  place : Place
  tokens : List Token := []
  /-- Columns of the open block collections, the innermost first. -/
  indents : List Nat := []
  key : Option PossibleKey := none
  /-- Possible keys outside the open brackets, the innermost first. -/
  outerKeys : List (Option PossibleKey) := []
  keyAllowed : Bool := true

namespace Lexing

def bracketed (lexing : Lexing) : Bool := !lexing.outerKeys.isEmpty

def emit (token : Token) (lexing : Lexing) : Lexing :=
  { lexing with tokens := lexing.tokens ++ [token] }

def skip (count : Nat) (lexing : Lexing) : Lexing :=
  { lexing with place := lexing.place.advance count }

def allowKey (keyAllowed : Bool) (lexing : Lexing) : Lexing := { lexing with keyAllowed }

/-- Gives up the possible key, unless its colon must come. -/
def forgetKey (lexing : Lexing) : Option Lexing :=
  if lexing.key.any (·.required) then none else some { lexing with key := none }

/-- Makes the token ahead a possible key, where one may stand. -/
def offerKey (lexing : Lexing) : Option Lexing :=
  if lexing.keyAllowed then do
    let lexing ← lexing.forgetKey
    some { lexing with key := some {
      number := lexing.tokens.length
      place := lexing.place
      required := !lexing.bracketed && lexing.indents.head? == some lexing.place.column } }
  else some lexing

/-- Gives up the possible keys that are left behind. -/
def expireKeys (lexing : Lexing) : Option Lexing :=
  let stale (key : PossibleKey) := key.stale lexing.place
  let keys := (lexing.key :: lexing.outerKeys).map (Option.filter (!stale ·))
  if (lexing.key :: lexing.outerKeys).any (Option.any fun key => stale key && key.required) then none
  else some { lexing with key := keys.head?.join, outerKeys := keys.drop 1 }

/-- Opens a block collection at a column further right than all open ones. Its token takes the given number. -/
def indentTo (column number : Nat) (token : Token) (lexing : Lexing) : Lexing :=
  if !lexing.bracketed && lexing.indents.head?.all (· < column) then
    { lexing with
      indents := column :: lexing.indents
      tokens := lexing.tokens.insertIdx number token }
  else lexing

/-- Closes the open block collections that `isInside` holds of. -/
def unindent (isInside : Nat → Bool) (lexing : Lexing) : Lexing :=
  if lexing.bracketed then lexing
  else { lexing with
    tokens := lexing.tokens ++ (lexing.indents.takeWhile isInside).map fun _ => .blockEnd
    indents := lexing.indents.dropWhile isInside }

/-- Passes over spaces and comments. A key may stand on a new line, and where one may stand a tab is no space. A
mark of the byte order is a space at the start of a line only. -/
def toNext : Nat → Lexing → Lexing
  | 0, lexing => lexing
  | fuel + 1, lexing =>
    match lexing.place.rest with
    | [] => lexing
    | c :: rest =>
      if c = '#' then
        toNext fuel (lexing.skip (1 + (rest.takeWhile (!isBreak ·)).length))
      else if isBreak c then
        toNext fuel ((lexing.skip 1).allowKey (lexing.keyAllowed || !lexing.bracketed))
      else if c = ' ' ∨ (c = '\t' ∧ (lexing.bracketed ∨ !lexing.keyAllowed)) ∨
          (c = '\ufeff' ∧ lexing.place.column = 0) then
        toNext fuel (lexing.skip 1)
      else lexing

/-! ## Marks -/

def documentMark (token : Token) (lexing : Lexing) : Option Lexing := do
  let lexing ← (lexing.unindent fun _ => true).forgetKey
  some ((lexing.allowKey false).skip 3 |>.emit token)

def openMark (token : Token) (lexing : Lexing) : Option Lexing := do
  let lexing ← lexing.offerKey
  some ({ lexing with outerKeys := lexing.key :: lexing.outerKeys, key := none }.allowKey true
    |>.skip 1 |>.emit token)

def closeMark (token : Token) (lexing : Lexing) : Option Lexing := do
  let lexing ← lexing.forgetKey
  some ({ lexing with key := lexing.outerKeys.head?.join, outerKeys := lexing.outerKeys.drop 1 }.allowKey false
    |>.skip 1 |>.emit token)

def flowEntry (lexing : Lexing) : Option Lexing := do
  some ((← lexing.forgetKey).allowKey true |>.skip 1 |>.emit .flowEntry)

/-- A mark that opens a block collection where none is open at its column. -/
def blockMark (collection token : Token) (allow : Bool) (lexing : Lexing) : Option Lexing := do
  if !lexing.bracketed && !lexing.keyAllowed then none
  else
    let lexing := lexing.indentTo lexing.place.column lexing.tokens.length collection
    some ((← lexing.forgetKey).allowKey allow |>.skip 1 |>.emit token)

def valueMark (lexing : Lexing) : Option Lexing :=
  match lexing.key with
  | some key =>
    let lexing := { lexing with key := none, tokens := lexing.tokens.insertIdx key.number .key }
    some ((lexing.indentTo key.place.column key.number .blockMapping).allowKey false |>.skip 1 |>.emit .value)
  | none => lexing.blockMark .blockMapping .value !lexing.bracketed

/-! ## Scalars -/

def quoted (quote : Quote) (lexing : Lexing) : Option Lexing := do
  let lexing ← lexing.offerKey
  let (text, place) ← quoted? quote (lexing.place.rest.length + 1) lexing.place.next
  some ({ lexing with place }.allowKey false |>.emit (.scalar (.ofList text) false))

def plain (lexing : Lexing) : Option Lexing := do
  let lexing ← lexing.offerKey
  let indent := (lexing.indents.head?.map (· + 1)).getD 0
  let (text, crossed, place) ←
    plain? lexing.bracketed indent (lexing.place.rest.length + 1) [] lexing.place
  some ({ lexing with place }.allowKey crossed |>.emit (.scalar (.ofList text) true))

/-- Characters that a scalar without quotes does not start with. -/
def indicators : List Char := "-?:,[]{}#&*!|>'\"%@".toList ++ ['\x60']

/-- One token further. -/
def step (lexing : Lexing) : Option Lexing :=
  match lexing.place.rest with
  | [] => none
  | c :: rest =>
    if c = '%' ∧ lexing.place.column = 0 then none
    else if lexing.place.atDocumentMark then
      lexing.documentMark (if c = '-' then .documentStart else .documentEnd)
    else if c = '[' then lexing.openMark .openBracket
    else if c = '{' then lexing.openMark .openBrace
    else if c = ']' then lexing.closeMark .closeBracket
    else if c = '}' then lexing.closeMark .closeBrace
    else if c = ',' then lexing.flowEntry
    else if c = '-' ∧ endsWord rest then lexing.blockMark .blockSequence .blockEntry true
    else if c = '?' ∧ (lexing.bracketed ∨ endsWord rest) then
      lexing.blockMark .blockMapping .key !lexing.bracketed
    else if c = ':' ∧ (lexing.bracketed ∨ endsWord rest) then lexing.valueMark
    else if c = '\'' then lexing.quoted .single
    else if c = '"' then lexing.quoted .double
    else if c = '-' ∨ (!lexing.bracketed ∧ (c = '?' ∨ c = ':')) ∨ !(isSpace c || indicators.contains c) then
      lexing.plain
    else none

def finish (lexing : Lexing) : Option (List Token) :=
  ((lexing.unindent fun _ => true).forgetKey).map (·.tokens)

/-- All tokens, in as many steps as there are characters at most. -/
def run : Nat → Lexing → Option (List Token)
  | 0, _ => none
  | fuel + 1, lexing => do
    let lexing ← (lexing.toNext (lexing.place.rest.length + 1)).expireKeys
    let lexing := lexing.unindent (lexing.place.column < ·)
    if lexing.place.rest = [] then lexing.finish
    else run fuel (← lexing.step)

end Lexing

/-- The tokens of a text. -/
def Token.ofText? (text : String) : Option (List Token) :=
  (characters? text).bind fun rest => Lexing.run (rest.length + 1) { place := { rest } }

end RpcWire.Yaml
