import RpcWire.Server.Counts
import RpcWire.Settings

/-! A server: its settings, where it listens, and the connections it serves. -/
namespace RpcWire

structure Server where
  settings : ServerSettings
  counts : ServerCounts := {}
  buffers : BufferPool := {}
  /-- Where it listens, once it does. -/
  bound : Option SocketAddress := none
  running : Bool := false

namespace Server

/-- Listens at an address. -/
def bind (address : SocketAddress) (server : Server) : Server := { server with bound := some address }

def start (server : Server) : Server := { server with running := true }

/-- Takes no more connections. -/
def shutdown (server : Server) : Server := { server with running := false }

def record (event : ServerEvent) (server : Server) : Server :=
  { server with counts := server.counts.record server.settings.maxConnections event }

/-- Serves a connection that comes in, for so many requests at most, and gives all that the caller is sent;
nothing if the connection is not served. -/
def serve (processor : Processor) (most capacity : Nat) (prepared : Bool) (stream : Stream) (server : Server) :
    Option Handled × Server :=
  let admitted := server.record (.accepted prepared)
  match server.counts.admission server.settings.maxConnections prepared with
  | .served =>
    let handled := handle server.settings.session processor most capacity stream server.buffers
    let counts := { admitted.counts with requests := admitted.counts.requests + handled.served }
    let counts := match handled.ending with
      | some ending => counts.finish ending
      | none => counts
    (some handled, { admitted with counts, buffers := handled.pool })
  | _ => (none, admitted)

end Server
end RpcWire
