import RpcWire.Session
import RpcWire.Settings.Address
import RpcWire.Settings.Error

/-! Settings of a server: where it listens, how many connections it keeps and how long, and how it speaks. -/
namespace RpcWire

structure NetworkSettings where
  bindAddress : SocketAddress := .loopback
  /-- Zero keeps an idle connection forever. -/
  idleTimeoutSeconds : UInt64 := 300
  /-- Zero sets no bound. -/
  maxConnections : UInt64 := 1000
  deriving DecidableEq

structure Settings where
  network : NetworkSettings := {}
  session : SessionConfig := {}
  deriving DecidableEq

/-- What a server runs with. -/
structure ServerSettings where
  bindAddress : SocketAddress
  /-- Seconds after which a silent connection is closed, unless it is kept forever. -/
  idleTimeout : Option Nat
  maxConnections : Nat
  session : SessionConfig
  deriving DecidableEq

namespace Settings

def idleTimeout (network : NetworkSettings) : Option Nat :=
  if network.idleTimeoutSeconds = 0 then none else some network.idleTimeoutSeconds.toNat

def server (settings : Settings) : ServerSettings where
  bindAddress := settings.network.bindAddress
  idleTimeout := idleTimeout settings.network
  maxConnections := settings.network.maxConnections.toNat
  session := settings.session

/-- Refuses settings that a server cannot run with. -/
def validate (settings : Settings) : Except SettingsFlaw Unit :=
  if settings.session.recursionLimit = 0 then .error .noDepth
  else if settings.session.maxFrameSize = 0 then .error .noFrameSize
  else .ok ()

end Settings
end RpcWire
