import RpcWire.Codec.Binary
import RpcWire.Codec.Compact

/-! Either codec on a channel. The ends of fields, containers and messages leave no trace on the wire in
either encoding, so there is nothing to read or write for them. -/
namespace RpcWire

/-- The codec at work. -/
inductive Codec where
  | binary (codec : Binary)
  | compact (codec : Compact)
  deriving DecidableEq, Repr

namespace Codec

def encoding : Codec → Encoding
  | .binary _ => .binary
  | .compact _ => .compact

/-- Forgets the message under way; the binary codec remembers nothing. -/
def reset : Codec → Codec
  | .binary codec => .binary codec
  | .compact codec => .compact codec.reset

theorem encoding_reset (codec : Codec) : codec.reset.encoding = codec.encoding := by
  cases codec <;> rfl

/-- The compact version in use, if any. -/
def compactVersion? : Codec → Option CompactVersion
  | .binary _ => none
  | .compact codec => some codec.version

end Codec

/-- Actions of either codec. -/
abbrev WireM := CodecM Codec

namespace WireM

/-- Runs the action of the codec that is at work. -/
@[inline] def dispatch {α : Type} (binary : Binary.M α) (compact : Compact.M α) : WireM α :=
  fun endpoint =>
    match endpoint.codec with
    | .binary codec =>
      onPart (fun whole => ⟨codec, whole.channel⟩)
        (fun _ part => ⟨.binary part.codec, part.channel⟩) binary endpoint
    | .compact codec =>
      onPart (fun whole => ⟨codec, whole.channel⟩)
        (fun _ part => ⟨.compact part.codec, part.channel⟩) compact endpoint

def readMessageBegin : WireM MessageHeader := dispatch Binary.readMessageBegin Compact.readMessageBegin
def readStructBegin : WireM Unit := dispatch (pure ()) Compact.structBegin
def readStructEnd : WireM Unit := dispatch (pure ()) Compact.structEnd
def readFieldBegin : WireM FieldHeader := dispatch Binary.readFieldBegin Compact.readFieldBegin
def readMapBegin : WireM MapHeader := dispatch Binary.readMapBegin Compact.readMapBegin
def readListBegin : WireM ListHeader := dispatch Binary.readListBegin Compact.readListBegin
def readSetBegin : WireM ListHeader := dispatch Binary.readListBegin Compact.readListBegin
def readBool : WireM Bool := dispatch Binary.readBool Compact.readBool
def readByte : WireM Int8 := dispatch Binary.readByte Compact.readByte
def readI16 : WireM Int16 := dispatch Binary.readI16 Compact.readI16
def readI32 : WireM Int32 := dispatch Binary.readI32 Compact.readI32
def readI64 : WireM Int64 := dispatch Binary.readI64 Compact.readI64
def readDouble : WireM UInt64 := dispatch Binary.readDouble Compact.readDouble
def readFloat : WireM UInt32 := dispatch Binary.readFloat Compact.readFloat
def readText : WireM String := dispatch Binary.readText Compact.readText
def readBytes : WireM Bytes := dispatch Binary.readBytes Compact.readBytes

def writeMessageBegin (header : MessageHeader) : WireM Unit :=
  dispatch (Binary.writeMessageBegin header) (Compact.writeMessageBegin header)
def writeStructBegin : WireM Unit := dispatch (pure ()) Compact.structBegin
def writeStructEnd : WireM Unit := dispatch (pure ()) Compact.structEnd
def writeFieldBegin (header : FieldHeader) : WireM Unit :=
  dispatch (Binary.writeFieldBegin header) (Compact.writeFieldBegin header)
def writeFieldStop : WireM Unit := dispatch Binary.writeFieldStop Compact.writeFieldStop
def writeMapBegin (header : MapHeader) : WireM Unit :=
  dispatch (Binary.writeMapBegin header) (Compact.writeMapBegin header)
def writeListBegin (header : ListHeader) : WireM Unit :=
  dispatch (Binary.writeListBegin header) (Compact.writeListBegin header)
def writeSetBegin (header : ListHeader) : WireM Unit :=
  dispatch (Binary.writeListBegin header) (Compact.writeListBegin header)
def writeBool (value : Bool) : WireM Unit := dispatch (Binary.writeBool value) (Compact.writeBool value)
def writeByte (value : Int8) : WireM Unit := dispatch (Binary.writeByte value) (Compact.writeByte value)
def writeI16 (value : Int16) : WireM Unit := dispatch (Binary.writeI16 value) (Compact.writeI16 value)
def writeI32 (value : Int32) : WireM Unit := dispatch (Binary.writeI32 value) (Compact.writeI32 value)
def writeI64 (value : Int64) : WireM Unit := dispatch (Binary.writeI64 value) (Compact.writeI64 value)
def writeDouble (bits : UInt64) : WireM Unit :=
  dispatch (Binary.writeDouble bits) (Compact.writeDouble bits)
def writeFloat (bits : UInt32) : WireM Unit := dispatch (Binary.writeFloat bits) (Compact.writeFloat bits)
def writeText (text : String) : WireM Unit := dispatch (Binary.writeText text) (Compact.writeText text)
def writeBytes (bytes : Bytes) : WireM Unit := dispatch (Binary.writeBytes bytes) (Compact.writeBytes bytes)

/-- Hands what was written to the transport. -/
def flush : WireM Unit := Endpoint.onChannel Channel.flush

/-- Reads one field after the other until the one that ends the struct. Every head takes an octet, so no
more fields can follow than `most` octets can still come. -/
def foldFieldHeads {β : Type} (step : β → FieldHeader → WireM β) : Nat → β → WireM β
  | 0, _ => throw .streamClosed
  | most + 1, acc => do
    let header ← readFieldBegin
    if header.tag = .stop then return acc
    foldFieldHeads step most (← step acc header)

/-- Reads a struct: `step` reads the value of each field, in the order of the wire. -/
def foldStruct {β : Type} (init : β) (step : β → FieldHeader → WireM β) : WireM β := do
  readStructBegin
  let result ← foldFieldHeads step ((← get).channel.available + 1) init
  readStructEnd
  return result

/-- Does the same so many times; the first failure ends it. -/
def times (act : WireM Unit) : Nat → WireM Unit
  | 0 => pure ()
  | count + 1 => do
    act
    times act count

/-- The results of doing the same so many times; the first failure ends it. -/
def collect {β : Type} (act : WireM β) : Nat → WireM (List β)
  | 0 => pure []
  | count + 1 => do
    let first ← act
    return first :: (← collect act count)

end WireM
end RpcWire
