import RpcWire.Search.Wire
import RpcWire.Session.Reply
import RpcWire.Session.Serve

/-! The service that answers searches of one corpus. -/
namespace RpcWire.Search

/-- The one method there is. -/
def methodName : String := "Search"

/-- Reads one request and answers it, unless no answer is due. -/
def process (corpus : List String) : SessionM Unit := do
  let request ← Session.readMessageBegin
  match Session.expectRequest request with
  | .error err => throw err
  | .ok () =>
    if request.name ≠ methodName then
      Session.rejectUnknownMethod request
    else
      let args ← Session.onWire (Request.read (← get).config.recursionLimit)
      if request.kind = .oneway then return
      Session.writeReply request (run corpus args).write

/-- Answers requests until one fails. Every request takes an octet, so there are no more requests than
octets. -/
def serve (corpus : List String) (session : Session) : Nat × Option WireError × Session :=
  Session.serveWithin (process corpus) (session.endpoint.channel.available + 1) session 0

end RpcWire.Search
