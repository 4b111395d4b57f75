import RpcWire.Settings
import RpcWire.Settings.Yaml.Node

/-! Settings as a YAML document. What the document leaves out keeps its usual value, and what it says beyond the
settings is passed over; a setting may be given once. -/
namespace RpcWire.Settings

open Yaml (Node)

/-! ## Values -/

/-- The text of a scalar, in quotes or not. -/
def text? : Node → Option String
  | .scalar text _ => some text
  | _ => none

/-- The text of a scalar that stands without quotes. -/
def plain? : Node → Option String
  | .scalar text true => some text
  | _ => none

def flag? (node : Node) : Option Bool :=
  (plain? node).bind fun text =>
    if ["true", "True", "TRUE"].contains text then some true
    else if ["false", "False", "FALSE"].contains text then some false
    else none

/-- A number in base ten, or after `0x`, `0o` and `0b` in another base. A plus may stand in front; a zero in
front of further digits may not. -/
def natural? (text : String) : Option Nat :=
  let digits := match text.toList with
    | '+' :: digits => digits
    | digits => digits
  match digits with
  | '0' :: 'x' :: digits => Digit.number? 16 digits
  | '0' :: 'o' :: digits => Digit.number? 8 digits
  | '0' :: 'b' :: digits => Digit.number? 2 digits
  | '0' :: _ :: _ => none
  | digits => Digit.number? 10 digits

/-- A number below the bound, without quotes. -/
def below? (bound : Nat) (node : Node) : Option Nat :=
  ((plain? node).bind natural?).filter (· < bound)

def word64? (node : Node) : Option UInt64 := (below? UInt64.size node).map .ofNat

def word32? (node : Node) : Option UInt32 := (below? UInt32.size node).map .ofNat

/-- One of the choices, by its exact name. -/
def choice? {α : Type} (name : α → String) (choices : List α) (node : Node) : Option α :=
  (text? node).bind fun text => choices.find? (name · == text)

/-! ## Groups of settings -/

/-- The entries of a group of settings, which is empty where nothing is written. Known names occur once. -/
def entries? (known : List String) (node : Node) : Option (List (String × Node)) := do
  let entries ← match node with
    | .mapping entries => entries.mapM fun (key, value) => (text? key).map fun key => (key, value)
    | .scalar "" true => some []
    | _ => none
  if ((entries.map (·.1)).filter known.contains).Nodup then some entries else none

/-- The setting of a name, or its usual value where it is not among the entries. -/
def setting? {α : Type} (entries : List (String × Node)) (name : String) (usual : α) (read : Node → Option α) :
    Option α :=
  match entries.lookup name with
  | none => some usual
  | some node => read node

def network? (node : Node) : Option NetworkSettings := do
  let entries ← entries? ["bind_addr", "idle_timeout_secs", "max_connections"] node
  let usual : NetworkSettings := {}
  some {
    bindAddress := ← setting? entries "bind_addr" usual.bindAddress
      fun node => (text? node).bind SocketAddress.ofText?
    idleTimeoutSeconds := ← setting? entries "idle_timeout_secs" usual.idleTimeoutSeconds word64?
    maxConnections := ← setting? entries "max_connections" usual.maxConnections word64? }

def session? (node : Node) : Option SessionConfig := do
  let entries ← entries? ["transport", "protocol", "auto_detect", "compact_version", "strict_read",
    "recursion_limit", "string_limit", "container_limit", "max_frame_size"] node
  let usual : SessionConfig := {}
  let size? := below? UInt64.size
  some {
    transport := ← setting? entries "transport" usual.transport
      (choice? TransportKind.text [.raw, .framed, .header])
    encoding := ← setting? entries "protocol" usual.encoding
      (choice? Encoding.text [.binary, .json, .compact])
    autoDetect := ← setting? entries "auto_detect" usual.autoDetect flag?
    compactVersion := ← setting? entries "compact_version" usual.compactVersion
      (choice? CompactVersion.text [.littleEndian, .bigEndian])
    strictRead := ← setting? entries "strict_read" usual.strictRead flag?
    recursionLimit := ← setting? entries "recursion_limit" usual.recursionLimit size?
    limits := {
      text := ← setting? entries "string_limit" usual.limits.text size?
      container := ← setting? entries "container_limit" usual.limits.container size? }
    maxFrameSize := ← setting? entries "max_frame_size" usual.maxFrameSize word32? }

/-- The settings that a document gives. -/
def ofNode? (node : Node) : Option Settings := do
  let entries ← entries? ["network", "protocol"] node
  let usual : Settings := {}
  some {
    network := ← setting? entries "network" usual.network network?
    session := ← setting? entries "protocol" usual.session session? }

def ofText? (text : String) : Option Settings :=
  (Node.ofText? text).bind ofNode?

/-! ## Files -/

/-- What a file gives when its octets are no text. -/
def notText : IoError := ⟨.other "InvalidData", "stream did not contain valid UTF-8"⟩

/-- The settings that `parse` finds in a file, from its path and what reading it gave. -/
def ofFileBy (parse : String → Option Settings) (path : String) (content : Except IoError Bytes) :
    Except SettingsError Settings := do
  let bytes ← content.mapError (.unreadable path)
  match Utf8.decode? bytes with
  | none => throw (.unreadable path notText)
  | some text =>
    match parse text with
    | none => throw (.malformed path "no settings")
    | some settings => return settings

/-- The settings in a file that holds a YAML document. -/
def ofFile (path : String) (content : Except IoError Bytes) : Except SettingsError Settings :=
  ofFileBy ofText? path content

/-- An address in brackets stands in quotes. -/
def addressText (address : SocketAddress) : String :=
  match address.host with
  | .v4 _ _ _ _ => address.text
  | .v6 _ _ => "'" ++ address.text ++ "'"

def entryText (name value : String) : String := "  " ++ name ++ ": " ++ value ++ "\n"

/-- The document that gives the settings, each on a line of its own. -/
def text (settings : Settings) : String :=
  let network := settings.network
  let session := settings.session
  String.join [
    "network:\n",
    entryText "bind_addr" (addressText network.bindAddress),
    entryText "idle_timeout_secs" (toString network.idleTimeoutSeconds),
    entryText "max_connections" (toString network.maxConnections),
    "protocol:\n",
    entryText "transport" session.transport.text,
    entryText "protocol" session.encoding.text,
    entryText "auto_detect" (toString session.autoDetect),
    entryText "compact_version" session.compactVersion.text,
    entryText "strict_read" (toString session.strictRead),
    entryText "recursion_limit" (toString session.recursionLimit),
    entryText "string_limit" (toString session.limits.text),
    entryText "container_limit" (toString session.limits.container),
    entryText "max_frame_size" (toString session.maxFrameSize)]

end RpcWire.Settings
