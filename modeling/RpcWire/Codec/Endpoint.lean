import RpcWire.Channel
import RpcWire.Text.Utf8

/-! A codec at work on a channel, and what all codecs share. -/
namespace RpcWire

/-- Bounds on what is read; zero stands for no bound. -/
structure Limits where
  /-- Octets of a text or a run of octets. -/
  text : Nat := 0
  /-- Elements of a container. -/
  container : Nat := 0
  deriving DecidableEq, Repr

/-- A codec of kind `κ` and the channel it reads and writes. -/
structure Endpoint (κ : Type) where
  codec : κ
  channel : Channel
  deriving DecidableEq

/-- Actions of a codec. One that fails keeps what it did before. -/
abbrev CodecM (κ : Type) := EStateM WireError (Endpoint κ)

namespace Endpoint

/-- Runs an action on the channel. -/
@[inline] def onChannel {κ α : Type} : ChannelM α → CodecM κ α :=
  onPart Endpoint.channel fun endpoint channel => { endpoint with channel }

def readByte {κ : Type} : CodecM κ UInt8 := onChannel Channel.readByte

def readBigEndian {κ : Type} (width : Nat) : CodecM κ Nat := onChannel (Channel.readBigEndian width)

def write {κ : Type} (bytes : Bytes) : CodecM κ Unit := onChannel (Channel.write bytes)

def writeByte {κ : Type} (byte : UInt8) : CodecM κ Unit := onChannel (Channel.writeByte byte)

/-- The largest size that can be written. -/
def maxSize : Nat := 2147483647

/-- Refuses a size above a limit other than zero. -/
def checkLimit {κ : Type} (size limit : Nat) : CodecM κ Unit :=
  if 0 < limit ∧ limit < size then throw (.sizeLimit size limit) else pure ()

/-- Refuses a size that cannot be written. -/
def checkWritable {κ : Type} (size : Nat) : CodecM κ Unit :=
  if maxSize < size then throw (.sizeLimit size maxSize) else pure ()

/-- The text that the octets spell. -/
def decodeText {κ : Type} (bytes : Bytes) : CodecM κ String :=
  match Utf8.decode? bytes with
  | none => throw .invalidUtf8
  | some text => pure text

def decodeTag {κ : Type} (byte : UInt8) : CodecM κ Tag :=
  match Tag.ofByte? byte with
  | none => throw (.invalidData (.unknownTag byte))
  | some tag => pure tag

def decodeKind {κ : Type} (byte : UInt8) : CodecM κ MessageKind :=
  match MessageKind.ofByte? byte with
  | none => throw (.invalidData (.unknownMessageKind byte))
  | some kind => pure kind

end Endpoint
end RpcWire
