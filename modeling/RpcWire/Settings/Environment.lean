import RpcWire.Settings.File
import RpcWire.Settings.Name
import RpcWire.Text.Lowercase

/-! Settings from variables of the environment, which override those of a file. What a variable says is passed
over where it cannot be read. -/
namespace RpcWire

/-- The value of a variable, where it is set. -/
abbrev Environment := String → Option String

namespace Settings

/-- A number in base ten; a plus may stand in front. -/
def word64OfText? (text : String) : Option UInt64 :=
  let digits := match text.toList with
    | '+' :: digits => digits
    | digits => digits
  ((Digit.number? 10 digits).filter (· < UInt64.size)).map .ofNat

/-- A word for yes; every other text is a no. -/
def isYes (text : String) : Bool :=
  text == "1" || Lowercase.ofString text == "true"

/-- The settings with what the environment overrides. -/
def override (environment : Environment) (settings : Settings) : Settings where
  network := {
    bindAddress := ((environment "RTHRIFT_BIND").bind SocketAddress.ofText?).getD settings.network.bindAddress
    idleTimeoutSeconds :=
      ((environment "RTHRIFT_IDLE_TIMEOUT").bind word64OfText?).getD settings.network.idleTimeoutSeconds
    maxConnections :=
      ((environment "RTHRIFT_MAX_CONNECTIONS").bind word64OfText?).getD settings.network.maxConnections }
  session := { settings.session with
    transport := ((environment "RTHRIFT_TRANSPORT").bind fun text => (TransportKind.ofText text).toOption).getD
      settings.session.transport
    encoding := ((environment "RTHRIFT_PROTOCOL").bind fun text => (Encoding.ofText text).toOption).getD
      settings.session.encoding
    autoDetect := ((environment "RTHRIFT_AUTO_DETECT").map isYes).getD settings.session.autoDetect }

def ofEnvironment (environment : Environment) : Settings := override environment {}

/-- The settings a server starts with: those that `parse` finds in the file that the environment names, if it names
one, with what the environment overrides. -/
def loadBy (parse : String → Option Settings) (environment : Environment)
    (readFile : String → Except IoError Bytes) : Except SettingsError Settings := do
  let base ← match environment "RTHRIFT_CONFIG" with
    | none => .ok {}
    | some path => ofFileBy parse path (readFile path)
  let settings := base.override environment
  match settings.validate with
  | .error flaw => throw (.invalid flaw)
  | .ok () => return settings

/-- The settings a server starts with, from a file that holds a YAML document. -/
def load (environment : Environment) (readFile : String → Except IoError Bytes) : Except SettingsError Settings :=
  loadBy ofText? environment readFile

/-- The settings to start with: the usual ones where loading fails and no file was asked for. -/
def start (environment : Environment) (readFile : String → Except IoError Bytes) :
    Except SettingsError Settings :=
  match load environment readFile, environment "RTHRIFT_CONFIG" with
  | .error _, none => .ok {}
  | loaded, _ => loaded

end Settings
end RpcWire
