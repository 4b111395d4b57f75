import RpcWire.Client.Error

/-! What a caller says about one call: how long it may take, whether it is called off, and its headers. -/
namespace RpcWire

/-- Why a call is given up. -/
inductive Stop where
  | cancelled
  | deadline
  deriving DecidableEq

def Stop.error : Stop → ClientError
  | .cancelled => .cancelled
  | .deadline => .deadlineExceeded

structure CallContext where
  /-- Clock from which the call is too late. -/
  deadline : Option Nat := none
  headers : List (String × String) := []

namespace CallContext

/-- The context with a deadline, if it has none of its own. -/
def withUsualTime (now : Nat) (time : Option Nat) (context : CallContext) : CallContext :=
  { context with deadline := context.deadline <|> time.map (now + ·) }

/-- Refuses to begin what is called off or too late. -/
def check (now : Nat) (cancelled : Bool) (context : CallContext) : Except ClientError Unit :=
  if cancelled then .error Stop.cancelled.error
  else if context.deadline.any (· ≤ now) then .error Stop.deadline.error
  else .ok ()

end CallContext
end RpcWire
