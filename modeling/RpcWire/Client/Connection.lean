import RpcWire.Client.Error
import RpcWire.Client.Settings

/-! One connection of a client, and the exchange of a request for its reply. A connection whose exchange fails is
marked, unless the failure is the reply itself. -/
namespace RpcWire

structure Connection where
  /-- Which of the connections that its pool opened it is. -/
  serial : Nat
  address : SocketAddress
  session : Session
  /-- Sequence number of the last request. -/
  lastSeqId : Int32 := 0
  /-- Whether it has lain idle since it was opened. -/
  reused : Bool := false
  failed : Bool := false
  openedAt : Nat
  releasedAt : Option Nat := none

abbrev ConnectionM := EStateM ClientError Connection

/-- A request and how to read the result in its reply. -/
structure Call (α : Type) where
  method : String
  arguments : WireM Unit
  /-- Whether no reply is due. -/
  oneway : Bool := false
  /-- Headers of this request alone. -/
  headers : List (String × String) := []
  result : WireM α

def Call.kind {α : Type} (call : Call α) : MessageKind :=
  if call.oneway then .oneway else .call

namespace Connection

/-- A connection on a socket just connected. -/
def ofStream? (settings : PoolSettings) (serial : Nat) (address : SocketAddress) (openedAt : Nat)
    (stream : Stream) : Except ClientError Connection := do
  let session ← (Session.ofStream? settings.session stream).mapError .ofWire
  let introduce (head : EnvelopeHead) : EnvelopeHead := { head with
    identity := settings.identity
    outgoingLasting := settings.lastingHeaders }
  return { serial, address, session := session.mapTransport (Transport.mapHead introduce), openedAt }

def mapSession (f : Session → Session) (connection : Connection) : Connection :=
  { connection with session := f connection.session }

def mapStream (f : Stream → Stream) : Connection → Connection := mapSession (Session.mapStream f)

def markFailed (connection : Connection) : Connection := { connection with failed := true }

def release (now : Nat) (connection : Connection) : Connection :=
  { connection with reused := true, releasedAt := some now }

def shutdown : Connection → Connection := mapStream Stream.shutdown

/-- Octets read ahead and not consumed. -/
def buffered (connection : Connection) : Nat := connection.session.endpoint.channel.readAhead.length

/-- Whether it has become too old, or has lain idle for too long since its last release. -/
def isExpired (settings : PoolSettings) (now : Nat) (connection : Connection) : Bool :=
  settings.maxAge.any (· ≤ now - connection.openedAt) ||
    match settings.idleTimeout, connection.releasedAt with
    | some timeout, some releasedAt => timeout ≤ now - releasedAt
    | _, _ => false

/-- Whether the other side has gone away, or has sent what nobody asked for. -/
def isOutOfStep (connection : Connection) : Bool :=
  0 < connection.buffered || !connection.session.stream.isSilent

/-- Sequence numbers run from one to the largest positive number and start again. -/
def nextSeqId (seqId : Int32) : Int32 :=
  if seqId = Int32.maxValue then 1 else seqId + 1

/-- Counts one request more. -/
def advance (connection : Connection) : Connection :=
  { connection with lastSeqId := nextSeqId connection.lastSeqId }

/-! ## Exchanges -/

/-- Runs an action of the session. -/
def onSession {α : Type} (convert : WireError → ClientError) (act : SessionM α) : ConnectionM α :=
  fun connection =>
    match act connection.session with
    | .ok result session => .ok result { connection with session }
    | .error err session => .error (convert err) { connection with session }

/-- What a failure of writing a request means: the other side has gone away, or what it says. -/
def ofWriteError (err : WireError) : ClientError :=
  if err.isPeerClosed then .peerClosed else .ofWire err

/-- Writes a request, unless the connection has lain idle and is no longer in step. -/
def sendRequest {α : Type} (call : Call α) : ConnectionM Unit := do
  let connection ← get
  if connection.reused && connection.isOutOfStep then throw .peerClosed
  modify advance
  modify (mapSession (Session.mapTransport (Transport.mapHead fun head =>
    { head with outgoing := head.outgoing.insertMany call.headers })))
  let header : MessageHeader := ⟨call.method, call.kind, (← get).lastSeqId⟩
  onSession ofWriteError do
    Session.writeMessageBegin header
    Session.onWire call.arguments
    Session.flush

/-- Reads the reply to the last request, and no other message. -/
def receiveReply {α : Type} (call : Call α) : ConnectionM α := do
  let expected := (← get).lastSeqId
  let header ← onSession .ofWire Session.readMessageBegin
  if header.kind ≠ .reply then throw (.unexpectedKind header.kind)
  if header.name ≠ call.method then throw (.wrongMethodName call.method header.name)
  if header.seqId ≠ expected then throw (.sequenceMismatch expected header.seqId)
  onSession .ofWire (Session.onWire call.result)

/-- Sends a request and reads its reply if one is due. `peer` is what the other side does to the socket once it
has the request. -/
def tryExchange {α : Type} (peer : Stream → Stream) (call : Call α) : ConnectionM (Option α) := do
  sendRequest call
  modify (mapStream peer)
  if call.oneway then return none
  return some (← receiveReply call)

/-- An exchange that marks the connection when it is no longer in step. -/
def exchange {α : Type} (peer : Stream → Stream) (call : Call α) : ConnectionM (Option α) :=
  fun connection =>
    match tryExchange peer call connection with
    | .ok reply connection => .ok reply connection
    | .error err connection =>
      .error err (if err.keepsConnection then connection else connection.markFailed)

end Connection
end RpcWire
