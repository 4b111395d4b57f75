import RpcWire.Session

/-! Requests answered one after the other. -/
namespace RpcWire.Session

/-- Answers requests until one fails, at most so many: how many were answered in all, and the failure. -/
def serveWithin {ε : Type} (process : EStateM ε Session Unit) : Nat → Session → Nat → Nat × Option ε × Session
  | 0, session, served => (served, none, session)
  | most + 1, session, served =>
    match process session with
    | .ok () session => serveWithin process most session (served + 1)
    | .error err session => (served, some err, session)

end RpcWire.Session
