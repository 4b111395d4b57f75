import RpcWire.Client.Context
import RpcWire.Client.Pool

/-! Calls over pooled connections. A call is made on an idle connection or a new one; if an idle one turns out to
be closed before the request was sent, it may be made once more. -/
namespace RpcWire

/-- What one attempt at a call meets outside the client. -/
structure Circumstances where
  /-- What other callers do to the pool between the attempt before, if there was one, and this one. -/
  others : Pool → Pool := id
  /-- Clock when the attempt begins. -/
  begun : Nat := 0
  /-- Whether the caller has called it off by then. -/
  cancelled : Bool := false
  /-- What dialing gives, where a connection is dialed. -/
  dialed : Except ClientError Stream
  /-- Clock when the connection is open. -/
  openedAt : Nat := begun
  /-- What has happened to the socket of a connection while it lay idle. -/
  meanwhile : Stream → Stream := id
  /-- A failure to prepare the socket for the exchange. -/
  unprepared : Option IoError := none
  /-- What the other side does to the socket once it has the request. -/
  peer : Stream → Stream := id
  /-- Words of a crash that takes the connection with it. -/
  crash : Option String := none
  /-- Why the call is given up while the exchange runs. -/
  stop : Option Stop := none
  /-- Clock when the connection is given back. -/
  returned : Nat := begun

/-- One exchange that was made, as a caller who watches the client sees it. -/
structure ExchangeRecord where
  reused : Bool
  /-- Whether the whole request went out. -/
  sent : Bool
  deriving DecidableEq

/-- How an attempt at a call ended. -/
structure Attempt (α : Type) where
  result : Except ClientError (Option α)
  pool : Pool
  /-- Whether it was made on a connection that had lain idle. -/
  reused : Bool := false
  exchange : Option ExchangeRecord := none
  /-- What became of the connection, if there was one. -/
  disposal : Option Disposal := none

structure Client where
  settings : ClientSettings
  pool : Pool

namespace Client

variable {α : Type}

/-- Makes the exchange on a connection and gives the connection back. Whatever the exchange ended in, a call that
is given up answers why, and its connection is not used again. -/
def run (circumstances : Circumstances) (call : Call α) (connection : Connection) (pool : Pool) : Attempt α :=
  let reused := connection.reused
  match circumstances.unprepared with
  | some cause =>
    let (disposal, pool) := pool.put circumstances.returned connection.markFailed
    { result := .error (.io cause), pool, reused, disposal }
  | none =>
    let sent := match Connection.sendRequest call connection with
      | .ok _ _ => true
      | .error _ _ => false
    let exchange := some { reused, sent }
    let answer (result : Except ClientError (Option α)) : Except ClientError (Option α) :=
      match circumstances.stop with
      | some stop => .error stop.error
      | none => result
    match circumstances.crash with
    | some text =>
      { result := answer (.error (.taskFailed text)), pool := pool.forget connection.address, reused, exchange
        disposal := some .lost }
    | none =>
      let (result, after) : Except ClientError (Option α) × Connection :=
        match Connection.exchange circumstances.peer call connection with
        | .ok reply after => (.ok reply, after)
        | .error err after => (.error err, after)
      let after := if circumstances.stop.isSome then after.markFailed else after
      let (disposal, pool) := pool.put circumstances.returned after
      { result := answer result, pool, reused, exchange, disposal }

/-- Takes a connection, or opens one. -/
def connect (circumstances : Circumstances) (address : SocketAddress) (pool : Pool) :
    Except ClientError Connection × Pool :=
  match pool.take circumstances.begun address with
  | (.reuse connection, pool) => (.ok (connection.mapStream circumstances.meanwhile), pool)
  | (.dial, pool) => pool.opened circumstances.openedAt address circumstances.dialed
  | (.refused err, pool) => (.error err, pool)

/-- One attempt at a call. -/
def attempt (address : SocketAddress) (context : CallContext) (circumstances : Circumstances) (call : Call α)
    (pool : Pool) : Attempt α :=
  match context.check circumstances.begun circumstances.cancelled with
  | .error err => { result := .error err, pool }
  | .ok () =>
    match connect circumstances address pool with
    | (.error err, pool) => { result := .error err, pool }
    | (.ok connection, pool) => run circumstances { call with headers := context.headers } connection pool

/-- Whether a call is made once more after an attempt. -/
def retries (settings : ClientSettings) (attempt : Attempt α) : Bool :=
  settings.retry && attempt.reused &&
    match attempt.result with
    | .error err => err.isRetryable
    | .ok _ => false

/-- Attempts until one is the last, the first one first. Once a call has been made once more there is no other attempt;
before there is one, all idle connections are closed. -/
def attemptsFrom (settings : ClientSettings) (context : CallContext) (circumstances : Bool → Circumstances)
    (call : Call α) (retried : Bool) (pool : Pool) : List (Attempt α) × Attempt α :=
  let one := attempt settings.address context (circumstances retried) call pool
  if _more : (!retried && retries settings one) = true then
    let cleared := (one.pool.clearIdle settings.address).2
    let (earlier, last) := attemptsFrom settings context circumstances call true ((circumstances true).others cleared)
    (one :: earlier, last)
  else ([], one)
termination_by (!retried).toNat
decreasing_by
  cases retried with
  | false => decide
  | true => cases _more

/-- The attempts at a call: all but the last, and the last. -/
def attempts (client : Client) (context : CallContext) (first second : Circumstances) (call : Call α) :
    List (Attempt α) × Attempt α :=
  let context := context.withUsualTime first.begun client.settings.usualTime
  attemptsFrom client.settings context (fun retried => if retried then second else first) call false client.pool

/-- The result of a call, which no reply leaves empty. -/
def invoke (client : Client) (context : CallContext) (first second : Circumstances) (call : Call α) :
    Except ClientError (Option α) × Client :=
  let last := (client.attempts context first second call).2
  (last.result, { client with pool := last.pool })

/-- Calls a method that replies. -/
def call (client : Client) (context : CallContext) (first second : Circumstances) (call : Call α) :
    Except ClientError α × Client :=
  match client.invoke context first second { call with oneway := false } with
  | (.ok (some reply), client) => (.ok reply, client)
  | (.ok none, client) => (.error (.taskFailed "reply missing"), client)
  | (.error err, client) => (.error err, client)

/-- Calls a method that does not reply. -/
def notify (client : Client) (context : CallContext) (first second : Circumstances) (call : Call α) :
    Except ClientError Unit × Client :=
  match client.invoke context first second { call with oneway := true } with
  | (.ok _, client) => (.ok (), client)
  | (.error err, client) => (.error err, client)

end Client
end RpcWire
