import RpcWire.Wire.Error

/-! Why settings are not taken. -/
namespace RpcWire

/-- Settings that a server cannot run with. -/
inductive SettingsFlaw where
  | noDepth
  | noFrameSize
  | other (text : String)
  deriving DecidableEq

def SettingsFlaw.text : SettingsFlaw → String
  | .noDepth => "protocol.recursion_limit must be greater than zero"
  | .noFrameSize => "protocol.max_frame_size must be greater than zero"
  | .other text => text

inductive SettingsError where
  | unreadable (path : String) (cause : IoError)
  | malformed (path reason : String)
  | invalid (flaw : SettingsFlaw)
  deriving DecidableEq

/-- The kind of failure in a word. -/
def SettingsError.label : SettingsError → String
  | .unreadable _ _ => "IoError"
  | .malformed _ _ => "ParseError"
  | .invalid _ => "ValidationError"

def SettingsError.message : SettingsError → String
  | .unreadable path cause => "failed to read config file '" ++ path ++ "': " ++ cause.text
  | .malformed path reason => "failed to parse config file '" ++ path ++ "': " ++ reason
  | .invalid flaw => "configuration validation failed: " ++ flaw.text

end RpcWire
