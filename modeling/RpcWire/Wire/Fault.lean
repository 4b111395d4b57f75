/-! What a service sends in place of a result when it cannot give one. -/
namespace RpcWire

/-- Why a service gave no result. -/
inductive FaultKind where
  | unknown | unknownMethod | invalidMessageType | wrongMethodName | badSequenceId | missingResult
  | internalError | protocolError | invalidTransform | invalidProtocol | unsupportedClientType
  deriving DecidableEq, Repr

namespace FaultKind

def toWire : FaultKind → Int32
  | .unknown => 0
  | .unknownMethod => 1
  | .invalidMessageType => 2
  | .wrongMethodName => 3
  | .badSequenceId => 4
  | .missingResult => 5
  | .internalError => 6
  | .protocolError => 7
  | .invalidTransform => 8
  | .invalidProtocol => 9
  | .unsupportedClientType => 10

def all : List FaultKind :=
  [.unknown, .unknownMethod, .invalidMessageType, .wrongMethodName, .badSequenceId, .missingResult,
    .internalError, .protocolError, .invalidTransform, .invalidProtocol, .unsupportedClientType]

/-- A number that stands for no kind reads as `unknown`. -/
def ofWire (code : Int32) : FaultKind :=
  (all.find? (·.toWire == code)).getD .unknown

def text : FaultKind → String
  | .unknown => "UNKNOWN"
  | .unknownMethod => "UNKNOWN_METHOD"
  | .invalidMessageType => "INVALID_MESSAGE_TYPE"
  | .wrongMethodName => "WRONG_METHOD_NAME"
  | .badSequenceId => "BAD_SEQUENCE_ID"
  | .missingResult => "MISSING_RESULT"
  | .internalError => "INTERNAL_ERROR"
  | .protocolError => "PROTOCOL_ERROR"
  | .invalidTransform => "INVALID_TRANSFORM"
  | .invalidProtocol => "INVALID_PROTOCOL"
  | .unsupportedClientType => "UNSUPPORTED_CLIENT_TYPE"

theorem ofWire_toWire (kind : FaultKind) : ofWire kind.toWire = kind := by
  cases kind <;> decide

end FaultKind

/-- The answer of a service that gives no result. -/
structure Fault where
  kind : FaultKind
  message : String
  deriving DecidableEq, Repr

/-- The kind's name and the service's own words. -/
def Fault.text (fault : Fault) : String :=
  fault.kind.text ++ ": " ++ fault.message

end RpcWire
