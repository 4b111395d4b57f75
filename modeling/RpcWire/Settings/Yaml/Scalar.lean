import RpcWire.Settings.Yaml.Place

/-! Scalars of a YAML text: words, which may run over several lines, and text between single or double quotes. -/
namespace RpcWire.Yaml

/-- What a row of blanks and breaks inside a scalar stands for. Blanks beside a break count for nothing; a
single line feed is a space, and of more breaks the first falls away. -/
def foldSpaces (spaces : List Char) : List Char :=
  match spaces.filter isBreak with
  | [] => spaces
  | ['\n'] => [' ']
  | '\n' :: more => more
  | breaks => breaks

/-! ## Quotes -/

inductive Quote where
  | single
  | double
  deriving DecidableEq

def Quote.mark : Quote → Char
  | .single => '\''
  | .double => '"'

/-- The characters that stand for another one after a backslash. -/
def escapes : List (Char × Char) :=
  [('0', '\x00'), ('a', '\x07'), ('b', '\x08'), ('t', '\t'), ('\t', '\t'), ('n', '\n'), ('v', '\x0b'),
    ('f', '\x0c'), ('r', '\r'), ('e', '\x1b'), (' ', ' '), ('"', '"'), ('/', '/'), ('\\', '\\'), ('N', '\u0085'),
    ('_', '\u00a0'), ('L', '\u2028'), ('P', '\u2029')]

/-- The characters that announce the number of a character, and how many digits it has. -/
def numbered : List (Char × Nat) := [('x', 2), ('u', 4), ('U', 8)]

/-- The character that is meant after a backslash, and how many characters spell it. -/
def escape? : List Char → Option (Char × Nat)
  | [] => none
  | c :: rest =>
    match escapes.lookup c, numbered.lookup c with
    | some meant, _ => some (meant, 1)
    | none, none => none
    | none, some count => do
      let number ← Digit.number? 16 (rest.take count)
      if (rest.take count).length = count ∧ number.isValidChar then some (.ofNat number, count + 1) else none

/-- The text up to the closing quote, and the place after it. A quote inside single quotes is written twice; a
backslash inside double quotes may stand for another character, or at the end of a line join it to the next. -/
def quoted? (quote : Quote) : Nat → Place → Option (List Char × Place)
  | 0, _ => none
  | fuel + 1, place =>
    if place.atDocumentMark then none
    else match place.rest with
      | [] => none
      | c :: rest =>
        let continued (text : List Char) (count : Nat) :=
          (quoted? quote fuel (place.advance count)).map fun (more, place) => (text ++ more, place)
        if isSpace c then continued (foldSpaces place.spaces) place.spaces.length
        else if c = quote.mark then
          if quote = .single ∧ rest.head? = some '\'' then continued ['\''] 2 else some ([], place.next)
        else if quote = .double ∧ c = '\\' then
          if rest.head?.any isBreak then
            let spaces := (place.advance 2).spaces
            continued (spaces.filter isBreak) (2 + spaces.length)
          else (escape? rest).bind fun (meant, count) => continued [meant] (count + 1)
        else continued [c] 1

/-! ## Words -/

/-- Characters that end a word inside brackets. -/
def closesWord (c : Char) : Bool := c ∈ [',', '[', ']', '{', '}']

/-- The characters of a word up to its end: a space, a colon before one, or inside brackets a mark of theirs. A
colon right before such a mark is refused there. -/
def word? (bracketed : Bool) : List Char → Option (List Char)
  | [] => some []
  | c :: rest =>
    if isSpace c then some []
    else if c = ':' ∧ bracketed ∧ rest.head?.any (fun next => closesWord next || next = '?') then none
    else if (c = ':' ∧ endsWord rest) ∨ (bracketed ∧ closesWord c) then some []
    else (word? bracketed rest).map (c :: ·)

/-- Whether a line after the first one in a row of spaces has a tab before the column. -/
def tabIndents (column : Nat) (spaces : List Char) : Bool :=
  ((spaces.splitBy fun a b => !isBreak a && !isBreak b).drop 1).any fun line => (line.take column).contains '\t'

/-- A scalar of words: its text, whether a line ended since its last word, and the place behind. `spaces` lie
between what was read so far, if anything was, and the place. -/
def plain? (bracketed : Bool) (indent : Nat) : Nat → List Char → Place → Option (List Char × Bool × Place)
  | 0, _, _ => none
  | fuel + 1, spaces, place =>
    let stop := some ([], spaces.any isBreak, place)
    if place.rest.head? = some '#' ∨ place.atDocumentMark then stop
    else match word? bracketed place.rest with
      | none => none
      | some [] => stop
      | some word =>
        let ended := place.advance word.length
        let text := foldSpaces spaces ++ word
        let after := ended.advance ended.spaces.length
        if ended.spaces = [] then some (text, false, ended)
        else if tabIndents indent ended.spaces then none
        else if !bracketed && after.column < indent then some (text, ended.spaces.any isBreak, after)
        else (plain? bracketed indent fuel ended.spaces after).map fun (more, crossed, place) =>
          (text ++ more, crossed, place)

end RpcWire.Yaml
