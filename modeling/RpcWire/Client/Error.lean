import RpcWire.Settings.Address
import RpcWire.Wire.Error

/-! Why a call fails. -/
namespace RpcWire

inductive ClientError where
  | io (cause : IoError)
  | wire (cause : WireError)
  | sequenceMismatch (expected actual : Int32)
  | wrongMethodName (expected actual : String)
  | unexpectedKind (kind : MessageKind)
  /-- The answer to the call is a fault. -/
  | fault (answer : Fault)
  | peerClosed
  | tooManyConnections (address : SocketAddress)
  | timeout
  | cancelled
  | deadlineExceeded
  | taskFailed (text : String)
  | poolClosed
  deriving DecidableEq

namespace ClientError

def message : ClientError → String
  | .io cause => "I/O error: " ++ cause.text
  | .wire cause => "protocol error: " ++ cause.message
  | .sequenceMismatch expected actual =>
    s!"sequence id mismatch: expected {expected}, got {actual}"
  | .wrongMethodName expected actual => "wrong method name: expected " ++ expected ++ ", got " ++ actual
  | .unexpectedKind kind => "unexpected message type: " ++ kind.name
  | .fault answer => "application exception: " ++ answer.text
  | .peerClosed => "connection closed by peer"
  | .tooManyConnections address => "too many connections to " ++ address.text
  | .timeout => "request timeout"
  | .cancelled => "call cancelled"
  | .deadlineExceeded => "deadline exceeded"
  | .taskFailed text => "call task failed: " ++ text
  | .poolClosed => "connection pool is closed"

/-- The kind of failure in a word. -/
def label : ClientError → String
  | .io _ => "Io"
  | .wire _ => "Protocol"
  | .sequenceMismatch _ _ => "SequenceMismatch"
  | .wrongMethodName _ _ => "WrongMethodName"
  | .unexpectedKind _ => "InvalidMessageType"
  | .fault _ => "Application"
  | .peerClosed => "PeerClosed"
  | .tooManyConnections _ => "TooManyConnections"
  | .timeout => "Timeout"
  | .cancelled => "Cancelled"
  | .deadlineExceeded => "DeadlineExceeded"
  | .taskFailed _ => "TaskFailed"
  | .poolClosed => "PoolClosed"

/-- What a failure of reading or writing means for a call. -/
def ofWire (err : WireError) : ClientError :=
  match err with
  | .fault answer => .fault answer
  | other => if other.isTimeout then .timeout else .wire other

/-- Whether the request may be sent again on another connection. -/
def isRetryable : ClientError → Bool
  | .peerClosed => true
  | _ => false

/-- Whether the connection is still in step afterwards: an answer came, and it is a fault. -/
def keepsConnection : ClientError → Bool
  | .fault _ => true
  | _ => false

end ClientError
end RpcWire
