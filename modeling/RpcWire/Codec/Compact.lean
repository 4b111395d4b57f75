import RpcWire.Bytes.Varint
import RpcWire.Bytes.Zigzag
import RpcWire.Codec.Endpoint

/-! The compact encoding: numbers take as few octets as they need, field numbers are written as steps from
the field before, and a truth value stands in the head of its field. -/
namespace RpcWire

/-- The two versions of the compact encoding, which differ in the byte order of doubles. -/
inductive CompactVersion where
  | littleEndian | bigEndian
  deriving DecidableEq, Repr

namespace CompactVersion

def toByte : CompactVersion → UInt8
  | .littleEndian => 1
  | .bigEndian => 2

def ofByte? (byte : UInt8) : Option CompactVersion :=
  [littleEndian, bigEndian].find? (·.toByte == byte)

def name : CompactVersion → String
  | .littleEndian => "LittleEndian"
  | .bigEndian => "BigEndian"

/-- The name that settings use. -/
def text : CompactVersion → String
  | .littleEndian => "little_endian"
  | .bigEndian => "big_endian"

end CompactVersion

/-- Options of the compact encoding, and its memory of the message under way. -/
structure Compact where
  version : CompactVersion := .littleEndian
  limits : Limits := {}
  /-- Number of the field before, in the struct under way. -/
  lastField : Int16 := 0
  /-- Numbers of the fields under way in the structs around it, innermost first. -/
  outerFields : List Int16 := []
  /-- Number of a field whose head is written together with its truth value. -/
  pendingWrite : Option Int16 := none
  /-- Truth value that came in the head of its field. -/
  pendingRead : Option Bool := none
  deriving DecidableEq, Repr

namespace Compact
open Endpoint

abbrev M := CodecM Compact

/-- First octet of every message. -/
def mark : UInt8 := 0x82
def versionMask : UInt8 := 0x1f

/-- Forgets the message under way. -/
def reset (codec : Compact) : Compact :=
  { codec with lastField := 0, outerFields := [], pendingWrite := none, pendingRead := none }

/-- Structs under way. -/
def depth (codec : Compact) : Nat := codec.outerFields.length

def onCodec (f : Compact → Compact) : M Unit :=
  modify fun endpoint => { endpoint with codec := f endpoint.codec }

/-! ## Shapes in four bits -/

def stopNibble : UInt8 := 0
def trueNibble : UInt8 := 1
def falseNibble : UInt8 := 2

/-- The four bits of a shape; a truth value is written as true, and void has none. -/
def nibbleOfTag : Tag → Option UInt8
  | .stop => some stopNibble
  | .void => none
  | .bool => some trueNibble
  | .byte => some 3
  | .i16 => some 4
  | .i32 => some 5
  | .i64 => some 6
  | .double => some 7
  | .string => some 8
  | .list => some 9
  | .set => some 10
  | .map => some 11
  | .struct => some 12
  | .float => some 13

def tagOfNibble (nibble : UInt8) : Option Tag :=
  if nibble = falseNibble then some .bool
  else Tag.all.find? fun tag => nibbleOfTag tag == some nibble

def encodeTag (tag : Tag) : M UInt8 :=
  match nibbleOfTag tag with
  | none => throw (.invalidData .voidNotCompact)
  | some nibble => pure nibble

def decodeNibble (nibble : UInt8) : M Tag :=
  match tagOfNibble nibble with
  | none => throw (.invalidData (.unknownCompactTag nibble))
  | some tag => pure tag

/-! ## Structs -/

def structBegin : M Unit :=
  onCodec fun codec =>
    { codec with lastField := 0, outerFields := codec.lastField :: codec.outerFields }

def structEnd : M Unit := do
  match (← get).codec.outerFields with
  | [] => throw (.invalidData .unmatchedStructEnd)
  | last :: outer => onCodec fun codec => { codec with lastField := last, outerFields := outer }

/-! ## Reading -/

/-- Octets up to the first that ends a number, at most so many; `most` is the bound at the outset. -/
def readGroups (most : Nat) : Nat → M Bytes
  | 0 => throw (.invalidData (.varintTooLong most))
  | left + 1 => do
    let first ← Endpoint.readByte
    if Varint.continues first then
      return first :: (← readGroups most left)
    return [first]

/-- A number of at most `most` octets. -/
def readVarint (most : Nat) : M Nat := do
  return Varint.value (← readGroups most most)

/-- A number of at most five octets, which must fit in 32 bits. -/
def readVarint32 : M UInt32 := do
  let value ← readVarint 5
  if UInt32.size ≤ value then throw (.invalidData (.varintOverflow value))
  return UInt32.ofNat value

/-- A number of at most ten octets; what exceeds 64 bits is cut off. -/
def readVarint64 : M UInt64 := do
  return UInt64.ofNat (← readVarint 10)

/-- A size of at most `limit`. One above the signed range counts as negative. -/
def readSize (limit : Nat) : M Nat := do
  let size ← readVarint32
  if maxSize < size.toNat then throw (.negativeSize size.toInt32.toInt)
  checkLimit size.toNat limit
  return size.toNat

def readI16 : M Int16 := do
  let value := Zigzag.decode32 (← readVarint32)
  if value < -32768 ∨ 32767 < value then throw (.invalidData (.notI16 value))
  return value.toInt16

def readI32 : M Int32 := do return Zigzag.decode32 (← readVarint32)

def readI64 : M Int64 := do return Zigzag.decode64 (← readVarint64)

def readByte : M Int8 := do return (← Endpoint.readByte).toInt8

/-- The value from the field's head, where there is one; else an octet, of which only one is true. -/
def readBool : M Bool := do
  match (← get).codec.pendingRead with
  | some value =>
    onCodec fun codec => { codec with pendingRead := none }
    return value
  | none => return (← Endpoint.readByte) == trueNibble

def readDouble : M UInt64 := do
  let bytes ← onChannel (Channel.read 8)
  match (← get).codec.version with
  | .littleEndian => return UInt64.ofNat (Bytes.toNat bytes.reverse)
  | .bigEndian => return UInt64.ofNat bytes.toNat

def readFloat : M UInt32 := do return UInt32.ofNat (← readBigEndian 4)

def readBytes : M Bytes := do
  onChannel (Channel.read (← readSize (← get).codec.limits.text))

def readText : M String := do decodeText (← readBytes)

/-- The version of the message read is kept for the messages written after it. -/
def readMessageBegin : M MessageHeader := do
  let first ← Endpoint.readByte
  if first ≠ mark then throw (.badVersion (.compactMark mark first))
  let second ← Endpoint.readByte
  match CompactVersion.ofByte? (second &&& versionMask) with
  | none => throw (.badVersion (.compact (second &&& versionMask)))
  | some version => onCodec fun codec => { codec with version }
  let kind ← decodeKind (second >>> 5)
  let seqId := (← readVarint32).toInt32
  let name ← readText
  return ⟨name, kind, seqId⟩

/-- The number of a field is a step from the one before, or written out where the step is zero. -/
def readFieldBegin : M FieldHeader := do
  let byte ← Endpoint.readByte
  let nibble := byte &&& 0x0f
  if nibble = stopNibble then return .stop
  let step := byte >>> 4
  let id ← if step = 0 then readI16 else
    pure ((← get).codec.lastField + step.toUInt16.toInt16)
  let tag ← decodeNibble nibble
  if tag = .bool then
    onCodec fun codec => { codec with pendingRead := some (nibble == trueNibble) }
  onCodec fun codec => { codec with lastField := id }
  return ⟨tag, id⟩

/-- An empty map is a zero and names no shapes. -/
def readMapBegin : M MapHeader := do
  let size ← readSize (← get).codec.limits.container
  if size = 0 then return ⟨.stop, .stop, 0⟩
  let tags ← Endpoint.readByte
  let key ← decodeNibble (tags >>> 4)
  let value ← decodeNibble (tags &&& 0x0f)
  return ⟨key, value, size⟩

/-- The head of a list or a set: sizes up to fourteen share an octet with the shape. -/
def readListBegin : M ListHeader := do
  let byte ← Endpoint.readByte
  let elem ← decodeNibble (byte &&& 0x0f)
  let limit := (← get).codec.limits.container
  let short := (byte >>> 4).toNat
  if short = 15 then return ⟨elem, ← readSize limit⟩
  checkLimit short limit
  return ⟨elem, short⟩

/-! ## Writing -/

def writeVarint (n : Nat) : M Unit := write (Varint.encode n)

def writeSize (size : Nat) : M Unit := do
  checkWritable size
  writeVarint size

def writeI16 (value : Int16) : M Unit := writeVarint (Zigzag.encode32 value.toInt32).toNat

def writeI32 (value : Int32) : M Unit := writeVarint (Zigzag.encode32 value).toNat

def writeI64 (value : Int64) : M Unit := writeVarint (Zigzag.encode64 value).toNat

def writeByte (value : Int8) : M Unit := Endpoint.writeByte value.toUInt8

def writeDouble (bits : UInt64) : M Unit := do
  match (← get).codec.version with
  | .littleEndian => write (Bytes.littleEndian 8 bits.toNat)
  | .bigEndian => write (Bytes.bigEndian 8 bits.toNat)

def writeFloat (bits : UInt32) : M Unit := write (Bytes.bigEndian 4 bits.toNat)

def writeBytes (bytes : Bytes) : M Unit := do
  writeSize bytes.length
  write bytes

def writeText (text : String) : M Unit := writeBytes (Utf8.encode text)

def writeMessageBegin (header : MessageHeader) : M Unit := do
  Endpoint.writeByte mark
  Endpoint.writeByte ((← get).codec.version.toByte ||| header.kind.toByte <<< 5)
  writeVarint header.seqId.toUInt32.toNat
  writeText header.name

/-- The head of field `id`, as a step of one to fifteen from the field before or written out. -/
def writeFieldHead (nibble : UInt8) (id : Int16) : M Unit := do
  let step := id.toInt - (← get).codec.lastField.toInt
  if 1 ≤ step ∧ step ≤ 15 then
    Endpoint.writeByte (UInt8.ofNat (step.toNat * 16) ||| nibble)
  else
    Endpoint.writeByte nibble
    writeI16 id
  onCodec fun codec => { codec with lastField := id }

/-- The head of a truth value waits for the value. -/
def writeFieldBegin (header : FieldHeader) : M Unit := do
  if header.tag = .bool then
    onCodec fun codec => { codec with pendingWrite := some header.id }
  else
    writeFieldHead (← encodeTag header.tag) header.id

def writeFieldStop : M Unit := Endpoint.writeByte stopNibble

/-- Completes the head of the field that waits for it, or stands alone. -/
def writeBool (value : Bool) : M Unit := do
  let nibble := if value then trueNibble else falseNibble
  match (← get).codec.pendingWrite with
  | some id =>
    onCodec fun codec => { codec with pendingWrite := none }
    writeFieldHead nibble id
  | none => Endpoint.writeByte nibble

def writeMapBegin (header : MapHeader) : M Unit := do
  if header.size = 0 then Endpoint.writeByte 0
  else
    let key ← encodeTag header.key
    let value ← encodeTag header.value
    writeSize header.size
    Endpoint.writeByte (key <<< 4 ||| value)

/-- The head of a list or a set. -/
def writeListBegin (header : ListHeader) : M Unit := do
  let nibble ← encodeTag header.elem
  if header.size ≤ 14 then
    Endpoint.writeByte (UInt8.ofNat (header.size * 16) ||| nibble)
  else
    Endpoint.writeByte (0xf0 ||| nibble)
    writeSize header.size

end Compact
end RpcWire
