import RpcWire.Transport.Stream
import RpcWire.Wire.Focus

/-! Frames: four octets of length, then so many octets. Each flush makes one frame. -/
namespace RpcWire

/-- A stream cut into frames. -/
structure Framed where
  stream : Stream
  maxSize : UInt32
  /-- Octets of the frame being read that are not read yet. -/
  remaining : Nat := 0
  /-- Octets of the frame being written. -/
  pending : Bytes := []
  deriving DecidableEq

abbrev FramedM := EStateM WireError Framed

namespace Framed

/-- Runs an action on the stream below. -/
def onStream {α : Type} : StreamM α → FramedM α :=
  onPart Framed.stream fun framed stream => { framed with stream }

/-- The written form of a frame. -/
def encode (payload : Bytes) : Bytes :=
  Bytes.bigEndian 4 payload.length ++ payload

/-- Moves on to a frame with octets left, over any number of empty ones; false at a clean end. -/
def await : FramedM Bool := fun framed =>
  if framed.remaining ≠ 0 then .ok true framed else
    match _h : Stream.readLength framed.stream with
    | .error err stream => .error err { framed with stream }
    | .ok none stream => .ok false { framed with stream }
    | .ok (some length) stream =>
      if framed.maxSize < length then
        .error (.framing (.tooLarge length.toNat framed.maxSize)) { framed with stream }
      else await { framed with stream, remaining := length.toNat }
termination_by framed => framed.stream.unread.length
decreasing_by exact Stream.length_unread_readLength _h

/-- One read: at most `n` octets, all of one frame. -/
def read (n : Nat) : FramedM Bytes := do
  if n = 0 then return []
  if !(← await) then return []
  let framed ← get
  let bytes ← onStream (Stream.read (min n framed.remaining))
  if bytes = [] then throw .closedInFrame
  modify fun framed => { framed with remaining := framed.remaining - bytes.length }
  return bytes

/-- Adds to the frame being written. A frame that would grow too large is dropped whole. -/
def write (bytes : Bytes) : FramedM Unit := fun framed =>
  let size := framed.pending.length + bytes.length
  if framed.maxSize.toNat < size then
    .error (.framing (.tooLarge size framed.maxSize)) { framed with pending := [] }
  else .ok () { framed with pending := framed.pending ++ bytes }

/-- Sends the frame being written, unless it is empty. -/
def flush : FramedM Unit := do
  let framed ← get
  if framed.pending = [] then return
  set { framed with pending := [] }
  onStream (Stream.write (encode framed.pending))

/-- Forgets the frames being read and written. -/
def reset (framed : Framed) : Framed :=
  { framed with remaining := 0, pending := [] }

end Framed
end RpcWire
