import RpcWire.Settings.Error

/-! How the service of a connection, or a server as a whole, comes to an end. -/
namespace RpcWire

inductive ServerError where
  | io (cause : IoError)
  | wire (cause : WireError)
  | settings (cause : SettingsError)
  | handlerPanicked (text : String)
  | shuttingDown
  deriving DecidableEq

namespace ServerError

def message : ServerError → String
  | .io cause => "I/O error: " ++ cause.text
  | .wire cause => "protocol error: " ++ cause.message
  | .settings cause => "configuration error: " ++ cause.message
  | .handlerPanicked text => "connection handler panicked: " ++ text
  | .shuttingDown => "server shutting down"

/-- The caller has gone away, which is no fault. -/
def isDisconnect : ServerError → Bool
  | .wire cause => cause.isEof || cause.isPeerClosed
  | .io cause => cause.kind ∈ [IoKind.unexpectedEof, .connectionReset, .brokenPipe]
  | _ => false

/-- The caller stayed silent too long, which is no fault. -/
def isIdleTimeout : ServerError → Bool
  | .wire cause => cause.isTimeout
  | _ => false

end ServerError
end RpcWire
