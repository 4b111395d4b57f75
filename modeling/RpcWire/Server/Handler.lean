import RpcWire.Server.BufferPool
import RpcWire.Server.Error
import RpcWire.Session.Serve

/-! The service of one connection, on a buffer set from the pool. It goes on until a request fails. -/
namespace RpcWire

/-- How the service of a connection ends. -/
inductive HandlerEnd where
  | failed (err : ServerError)
  | panicked (text : String)
  deriving DecidableEq

/-- Whether the end is a fault of the connection: neither a caller who left or fell silent, nor a panic. -/
def HandlerEnd.isError : HandlerEnd → Bool
  | .failed err => !err.isDisconnect && !err.isIdleTimeout
  | .panicked _ => false

def HandlerEnd.isPanic : HandlerEnd → Bool
  | .failed _ => false
  | .panicked _ => true

/-- Answers one request of a session. -/
abbrev Processor := EStateM HandlerEnd Session Unit

/-- A processor that does not panic. -/
def Processor.ofSession (act : SessionM Unit) : Processor := fun session =>
  match act session with
  | .ok () session => .ok () session
  | .error err session => .error (.failed (.wire err)) session

/-- A session on a stream that uses a buffer set, of which only the room counts. -/
def Session.onBuffers? (config : SessionConfig) (stream : Stream) (set : BufferSet) :
    Except WireError Session := do
  let session ← Session.ofStream? config stream
  return session.mapChannel fun channel =>
    { channel with readAhead := set.clear.readAhead, pending := set.clear.pending }

/-- The buffer set of a session, when it has grown to the given room. -/
def Session.buffers (session : Session) (set : BufferSet) (capacity : Nat) : BufferSet :=
  let channel := session.endpoint.channel
  BufferSet.clear { set with capacity, readAhead := channel.readAhead, pending := channel.pending }

/-- What was done for one connection. -/
structure Handled where
  /-- Requests answered. -/
  served : Nat
  /-- How it ended; nothing while it goes on. -/
  ending : Option HandlerEnd
  /-- All that the caller was sent. -/
  written : Bytes
  pool : BufferPool

/-- Serves a connection for so many requests at most. The buffer set, which may have grown, goes back to the pool
whatever the end is; it is lost only where no session can be made. -/
def handle (config : SessionConfig) (processor : Processor) (most capacity : Nat) (stream : Stream)
    (pool : BufferPool) : Handled :=
  let (set, pool) := pool.get
  match Session.onBuffers? config stream set with
  | .error err => { served := 0, ending := some (.failed (.wire err)), written := stream.written, pool }
  | .ok session =>
    let (served, ending, session) := Session.serveWithin processor most session 0
    { served, ending, written := session.stream.written, pool := pool.put (session.buffers set capacity) }

end RpcWire
