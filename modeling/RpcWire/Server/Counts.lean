import RpcWire.Server.Handler

/-! What a server counts: connections, requests and failures. -/
namespace RpcWire

structure ServerCounts where
  /-- Connections served so far, with those under way. -/
  total : Nat := 0
  /-- Connections under way. -/
  active : Nat := 0
  rejected : Nat := 0
  requests : Nat := 0
  errors : Nat := 0
  panics : Nat := 0
  deriving DecidableEq

/-- What becomes of a connection that comes in. -/
inductive Admission where
  | served
  /-- As many connections as allowed are under way. -/
  | rejected
  /-- Its socket could not be prepared. -/
  | unprepared
  deriving DecidableEq

/-- What happens on a server. -/
inductive ServerEvent where
  /-- A connection comes in, with a socket that can be prepared or not. -/
  | accepted (prepared : Bool)
  | answered
  /-- A connection ends that could not be served at all. -/
  | unserved
  | finished (ending : HandlerEnd)

namespace ServerCounts

/-- What becomes of a connection that comes in; zero sets no bound. -/
def admission (maxConnections : Nat) (prepared : Bool) (counts : ServerCounts) : Admission :=
  if 0 < maxConnections ∧ maxConnections ≤ counts.active then .rejected
  else if prepared then .served
  else .unprepared

def receive (admission : Admission) (counts : ServerCounts) : ServerCounts :=
  match admission with
  | .served => { counts with total := counts.total + 1, active := counts.active + 1 }
  | .rejected => { counts with rejected := counts.rejected + 1 }
  | .unprepared => { counts with errors := counts.errors + 1 }

def finish (ending : HandlerEnd) (counts : ServerCounts) : ServerCounts :=
  { counts with
    active := counts.active - 1
    errors := if ending.isError then counts.errors + 1 else counts.errors
    panics := if ending.isPanic then counts.panics + 1 else counts.panics }

/-- That no service began is an error whatever the reason is, were it that the caller has left. -/
def leave (counts : ServerCounts) : ServerCounts :=
  { counts with active := counts.active - 1, errors := counts.errors + 1 }

def record (maxConnections : Nat) (counts : ServerCounts) : ServerEvent → ServerCounts
  | .accepted prepared => counts.receive (counts.admission maxConnections prepared)
  | .answered => { counts with requests := counts.requests + 1 }
  | .unserved => counts.leave
  | .finished ending => counts.finish ending

end ServerCounts
end RpcWire
