import RpcWire.Session

/-! The server's side of a session: answering a request, and refusing one. -/
namespace RpcWire.Session

/-- Answers a request with the result that `body` writes. -/
def writeReply (request : MessageHeader) (body : WireM Unit) : SessionM Unit := do
  writeMessageBegin { request with kind := .reply }
  onWire body
  flush

/-- Answers a request with a fault. -/
def writeFault (request : MessageHeader) (fault : Fault) : SessionM Unit := do
  writeMessageBegin { request with kind := .exception }
  onWire fault.write
  flush

/-- The fault that answers a request for a method nobody serves. -/
def unknownMethod (name : String) : Fault :=
  ⟨.unknownMethod, "Unknown method " ++ name⟩

/-- Passes over the arguments of a request for a method nobody serves, and answers it if an answer is due. -/
def rejectUnknownMethod (request : MessageHeader) : SessionM Unit := do
  skip .struct
  if request.kind = .oneway then return
  writeFault request (unknownMethod request.name)

/-- Refuses what only a server sends. -/
def expectRequest (header : MessageHeader) : Except WireError Unit :=
  if header.kind.isRequest then .ok ()
  else .error (.invalidData (.unexpectedMessage header.kind header.name))

end RpcWire.Session
