import RpcWire.Codec.Endpoint

/-! The binary encoding: every number has its full width, most significant octet first. -/
namespace RpcWire

/-- Options of the binary encoding. -/
structure Binary where
  /-- Refuses messages without a version word. -/
  strict : Bool := false
  limits : Limits := {}
  deriving DecidableEq, Repr

namespace Binary
open Endpoint

abbrev M := CodecM Binary

/-- The high half of a version word. -/
def version : UInt32 := 0x80010000
def versionMask : UInt32 := 0xffff0000

/-! ## Reading -/

def readI16 : M Int16 := do return (UInt16.ofNat (← readBigEndian 2)).toInt16

def readI32 : M Int32 := do return (UInt32.ofNat (← readBigEndian 4)).toInt32

def readI64 : M Int64 := do return (UInt64.ofNat (← readBigEndian 8)).toInt64

def readByte : M Int8 := do return (← Endpoint.readByte).toInt8

/-- Every octet but zero is true. -/
def readBool : M Bool := do return (← Endpoint.readByte) != 0

def readDouble : M UInt64 := do return UInt64.ofNat (← readBigEndian 8)

def readFloat : M UInt32 := do return UInt32.ofNat (← readBigEndian 4)

/-- A size of at most `limit`. -/
def readSize (limit : Nat) : M Nat := do
  let size ← readI32
  if size < 0 then throw (.negativeSize size.toInt)
  checkLimit size.toInt.toNat limit
  return size.toInt.toNat

def readBytes : M Bytes := do
  onChannel (Channel.read (← readSize (← get).codec.limits.text))

def readText : M String := do decodeText (← readBytes)

def readTag : M Tag := do decodeTag (← Endpoint.readByte)

/-- A head starts with a version word, or, unless that is asked for, with the length of the name. -/
def readMessageBegin : M MessageHeader := do
  let word ← readI32
  let codec := (← get).codec
  if word < 0 then
    let word := word.toUInt32
    if word &&& versionMask ≠ version then
      throw (.badVersion (.binaryWord (word &&& versionMask)))
    let kind ← decodeKind word.toUInt8
    let name ← readText
    return ⟨name, kind, ← readI32⟩
  else
    if codec.strict then throw (.badVersion .missing)
    let length := word.toInt.toNat
    checkLimit length codec.limits.text
    let name ← decodeText (← onChannel (Channel.read length))
    let kind ← decodeKind (← Endpoint.readByte)
    return ⟨name, kind, ← readI32⟩

def readFieldBegin : M FieldHeader := do
  let tag ← readTag
  if tag = .stop then return .stop
  return ⟨tag, ← readI16⟩

def readMapBegin : M MapHeader := do
  let key ← readTag
  let value ← readTag
  return ⟨key, value, ← readSize (← get).codec.limits.container⟩

/-- The head of a list; that of a set is the same. -/
def readListBegin : M ListHeader := do
  let elem ← readTag
  return ⟨elem, ← readSize (← get).codec.limits.container⟩

/-! ## Writing -/

def writeI16 (value : Int16) : M Unit := write (Bytes.bigEndian 2 value.toUInt16.toNat)

def writeI32 (value : Int32) : M Unit := write (Bytes.bigEndian 4 value.toUInt32.toNat)

def writeI64 (value : Int64) : M Unit := write (Bytes.bigEndian 8 value.toUInt64.toNat)

def writeByte (value : Int8) : M Unit := Endpoint.writeByte value.toUInt8

def writeBool (value : Bool) : M Unit := Endpoint.writeByte (if value then 1 else 0)

def writeDouble (bits : UInt64) : M Unit := write (Bytes.bigEndian 8 bits.toNat)

def writeFloat (bits : UInt32) : M Unit := write (Bytes.bigEndian 4 bits.toNat)

def writeSize (size : Nat) : M Unit := do
  checkWritable size
  write (Bytes.bigEndian 4 size)

def writeBytes (bytes : Bytes) : M Unit := do
  writeSize bytes.length
  write bytes

def writeText (text : String) : M Unit := writeBytes (Utf8.encode text)

def writeMessageBegin (header : MessageHeader) : M Unit := do
  write (Bytes.bigEndian 4 (version ||| header.kind.toByte.toUInt32).toNat)
  writeText header.name
  writeI32 header.seqId

def writeFieldBegin (header : FieldHeader) : M Unit := do
  Endpoint.writeByte header.tag.toByte
  writeI16 header.id

def writeFieldStop : M Unit := Endpoint.writeByte Tag.stop.toByte

def writeMapBegin (header : MapHeader) : M Unit := do
  Endpoint.writeByte header.key.toByte
  Endpoint.writeByte header.value.toByte
  writeSize header.size

/-- The head of a list; that of a set is the same. -/
def writeListBegin (header : ListHeader) : M Unit := do
  Endpoint.writeByte header.elem.toByte
  writeSize header.size

end Binary
end RpcWire
