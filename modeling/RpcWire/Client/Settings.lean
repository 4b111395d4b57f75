import RpcWire.Session
import RpcWire.Settings.Address

/-! Settings of a client and of its pool of connections. Times are counted in milliseconds. -/
namespace RpcWire

structure PoolSettings where
  /-- Connections to one address at a time; zero sets no bound. -/
  maxActive : Nat := 64
  /-- Connections to one address that may lie idle. -/
  maxIdle : Nat := 8
  /-- Age from which a connection is closed. -/
  maxAge : Option Nat := none
  /-- Time after which an idle connection is closed. -/
  idleTimeout : Option Nat := some 60000
  session : SessionConfig := {}
  /-- Who the client says it is, where there are envelopes. -/
  identity : Option String := none
  /-- Headers of every envelope. -/
  lastingHeaders : Headers := ∅
  deriving DecidableEq

structure ClientSettings where
  address : SocketAddress := .loopback
  /-- Whether a call is made again when a reused connection turns out to be closed. -/
  retry : Bool := true
  /-- Time a call may take where its context names no deadline. -/
  usualTime : Option Nat := none
  deriving DecidableEq

end RpcWire
