import RpcWire.Transport

/-! Encodings and transports by name. Capital letters of the ASCII range count as small ones. -/
namespace RpcWire

/-- A name that stands for nothing, in small letters. -/
inductive NameError where
  | encoding (name : String)
  | transport (name : String)
  deriving DecidableEq, Repr

def NameError.message : NameError → String
  | .encoding name => "unknown protocol: " ++ name
  | .transport name => "unknown transport: " ++ name

def Encoding.ofText (text : String) : Except NameError Encoding :=
  let name := text.map Char.toLower
  match [Encoding.binary, .json, .compact].find? (·.text == name) with
  | some encoding => .ok encoding
  | none => .error (.encoding name)

/-- The raw transport is also called buffered. -/
def TransportKind.ofText (text : String) : Except NameError TransportKind :=
  let name := text.map Char.toLower
  if name = "buffered" then .ok .raw
  else match [TransportKind.raw, .framed, .header].find? (·.text == name) with
    | some kind => .ok kind
    | none => .error (.transport name)

end RpcWire
