import RpcWire.Transport

/-! A buffered channel: reads are served from octets read ahead, writes gather until a flush. While a capture
runs, every octet consumed is also set aside. -/
namespace RpcWire

structure Channel where
  transport : Transport
  /-- Octets read ahead and not consumed. -/
  readAhead : Bytes := []
  /-- Octets written and not flushed. -/
  pending : Bytes := []
  /-- Octets consumed since the capture began, if one runs. -/
  captured : Option Bytes := none
  deriving DecidableEq

abbrev ChannelM := EStateM WireError Channel

namespace Channel

/-- The most octets asked of the transport at once. -/
def readSize : Nat := 8192

/-- Reads ahead until `n` octets are there. What arrived before a failure stays. -/
def fill (n : Nat) : ChannelM Unit := fun channel =>
  if n ≤ channel.readAhead.length then .ok () channel else
    match Transport.read readSize channel.transport with
    | .error err transport => .error err { channel with transport }
    | .ok [] transport => .error .streamClosed { channel with transport }
    | .ok (first :: more) transport =>
      fill n { channel with transport, readAhead := channel.readAhead ++ first :: more }
termination_by channel => n - channel.readAhead.length
decreasing_by simp; omega

/-- The next `n` octets, which stay. -/
def peek (n : Nat) : ChannelM Bytes := do
  fill n
  return (← get).readAhead.take n

/-- The next `n` octets, which are consumed. -/
def read (n : Nat) : ChannelM Bytes := do
  fill n
  let channel ← get
  let bytes := channel.readAhead.take n
  set { channel with
    readAhead := channel.readAhead.drop n
    captured := channel.captured.map (· ++ bytes) }
  return bytes

/-- The next octet. -/
def readByte : ChannelM UInt8 := do
  return (← read 1).headD 0

/-- The next `width` octets as a number, most significant first. -/
def readBigEndian (width : Nat) : ChannelM Nat := do
  return (← read width).toNat

def write (bytes : Bytes) : ChannelM Unit :=
  modify fun channel => { channel with pending := channel.pending ++ bytes }

def writeByte (byte : UInt8) : ChannelM Unit :=
  write [byte]

def onTransport {α : Type} : TransportM α → ChannelM α :=
  onPart Channel.transport fun channel transport => { channel with transport }

/-- Hands what is pending to the transport, whether it takes it or not, and flushes the transport. -/
def flush : ChannelM Unit := do
  let pending := (← get).pending
  if pending ≠ [] then
    modify fun channel => { channel with pending := [] }
    onTransport (Transport.write pending)
  onTransport Transport.flush

def discardPending (channel : Channel) : Channel :=
  { channel with pending := [] }

def startCapture (channel : Channel) : Channel :=
  { channel with captured := some [] }

def stopCapture (channel : Channel) : Channel :=
  { channel with captured := none }

/-- What was consumed since the capture began; nothing where none runs. -/
def capture (channel : Channel) : Bytes :=
  channel.captured.getD []

/-- Octets that can still be consumed before the input ends, at most. -/
def available (channel : Channel) : Nat :=
  channel.readAhead.length + channel.transport.available

end Channel
end RpcWire
