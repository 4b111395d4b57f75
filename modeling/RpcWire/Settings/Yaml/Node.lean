import RpcWire.Settings.Yaml.Token

/-! The tree of a YAML document. What is left out where a node may stand is an empty scalar. -/
namespace RpcWire.Yaml

inductive Node where
  /-- A text, and whether it stands without quotes. -/
  | scalar (text : String) (plain : Bool)
  | sequence (items : List Node)
  | mapping (entries : List (Node × Node))

namespace Node

def empty : Node := .scalar "" true

/-- What is read from the front of a row of tokens, and what follows it. -/
abbrev Parser (α : Type) := List Token → Option (α × List Token)

/-- A node, or an empty one in front of the given tokens. -/
def unlessAt (ends : List Token) (node : Parser Node) : Parser Node := fun tokens =>
  if tokens.head?.any (ends.contains ·) then some (empty, tokens) else node tokens

/-- The value of a key: the node behind the mark of a value, or an empty one where there is none. -/
def valueUnlessAt (ends : List Token) (node : Parser Node) : Parser Node
  | .value :: rest => unlessAt ends node rest
  | tokens => some (empty, tokens)

mutual

/-- A node. Inside brackets it is no block collection, and only where a mapping has its keys and values may a
sequence stand without further indentation. -/
def parse (fuel : Nat) (block indentless : Bool) : Parser Node
  | .scalar text plain :: rest => some (.scalar text plain, rest)
  | .openBracket :: rest =>
    match fuel with
    | 0 => none
    | fuel + 1 => (flowItems fuel true rest).map fun (items, rest) => (.sequence items, rest)
  | .openBrace :: rest =>
    match fuel with
    | 0 => none
    | fuel + 1 => (flowEntries fuel true rest).map fun (entries, rest) => (.mapping entries, rest)
  | tokens =>
    match fuel, tokens with
    | fuel + 1, .blockSequence :: rest =>
      if block then (blockItems fuel true rest).map fun (items, rest) => (.sequence items, rest) else none
    | fuel + 1, .blockMapping :: rest =>
      if block then (blockEntries fuel rest).map fun (entries, rest) => (.mapping entries, rest) else none
    | fuel + 1, .blockEntry :: _ =>
      if indentless then (blockItems fuel false tokens).map fun (items, rest) => (.sequence items, rest)
      else none
    | _, _ => none

/-- Items of a sequence. One with indentation of its own has a token for its end. -/
def blockItems (fuel : Nat) (indented : Bool) : Parser (List Node)
  | .blockEntry :: rest =>
    match fuel with
    | 0 => none
    | fuel + 1 => do
      let ends := if indented then [.blockEntry, .blockEnd] else [.blockEntry, .key, .value, .blockEnd]
      let (item, rest) ← unlessAt ends (parse fuel true false) rest
      let (items, rest) ← blockItems fuel indented rest
      some (item :: items, rest)
  | tokens =>
    if indented then
      match tokens with
      | .blockEnd :: rest => some ([], rest)
      | _ => none
    else some ([], tokens)

def blockEntries (fuel : Nat) : Parser (List (Node × Node))
  | .blockEnd :: rest => some ([], rest)
  | .key :: rest =>
    match fuel with
    | 0 => none
    | fuel + 1 => do
      let ends := [.key, .value, .blockEnd]
      let (key, rest) ← unlessAt ends (parse fuel true true) rest
      let (value, rest) ← valueUnlessAt ends (parse fuel true true) rest
      let (entries, rest) ← blockEntries fuel rest
      some ((key, value) :: entries, rest)
  | _ => none

/-- Items between brackets. The mark of a key starts a mapping of one entry; a colon, a comma or the closing
bracket right behind that mark is itself the empty key. -/
def flowItems (fuel : Nat) (first : Bool) : Parser (List Node)
  | .closeBracket :: rest => some ([], rest)
  | tokens =>
    match fuel with
    | 0 => none
    | fuel + 1 => do
      let tokens ← if first then some tokens else match tokens with
        | .flowEntry :: rest => some rest
        | _ => none
      match tokens with
      | .closeBracket :: rest => some ([], rest)
      | .key :: rest =>
        let (key, rest) ←
          if rest.head?.any ([.value, .flowEntry, .closeBracket].contains ·) then some (empty, rest.drop 1)
          else parse fuel false false rest
        let (value, rest) ← valueUnlessAt [.flowEntry, .closeBracket] (parse fuel false false) rest
        let (items, rest) ← flowItems fuel false rest
        some (.mapping [(key, value)] :: items, rest)
      | tokens =>
        let (item, rest) ← parse fuel false false tokens
        let (items, rest) ← flowItems fuel false rest
        some (item :: items, rest)

/-- Entries between braces. One without a mark of its key has no value. -/
def flowEntries (fuel : Nat) (first : Bool) : Parser (List (Node × Node))
  | .closeBrace :: rest => some ([], rest)
  | tokens =>
    match fuel with
    | 0 => none
    | fuel + 1 => do
      let tokens ← if first then some tokens else match tokens with
        | .flowEntry :: rest => some rest
        | _ => none
      match tokens with
      | .closeBrace :: rest => some ([], rest)
      | .key :: rest =>
        let (key, rest) ← unlessAt [.value, .flowEntry, .closeBrace] (parse fuel false false) rest
        let (value, rest) ← valueUnlessAt [.flowEntry, .closeBrace] (parse fuel false false) rest
        let (entries, rest) ← flowEntries fuel false rest
        some ((key, value) :: entries, rest)
      | tokens =>
        let (key, rest) ← parse fuel false false tokens
        let (entries, rest) ← flowEntries fuel false rest
        some ((key, empty) :: entries, rest)

end

/-- The document that the tokens hold, if they hold no more than one. -/
def ofTokens? (tokens : List Token) : Option Node := do
  let fuel := 4 * tokens.length + 4
  let content := parse fuel true false
  let (node, rest) ← match tokens with
    | [] => some (empty, [])
    | .documentStart :: [] => some (empty, [])
    | .documentStart :: rest => unlessAt [.documentStart, .documentEnd] content rest
    | tokens => content tokens
  if rest.all (· = .documentEnd) then some node else none

/-- The document of a text. -/
def ofText? (text : String) : Option Node :=
  (Token.ofText? text).bind ofTokens?

end Node
end RpcWire.Yaml
