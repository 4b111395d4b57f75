import RpcWire.Value

/-! The octets of values, as functions of the values alone. A writer makes exactly these octets, whatever it
wrote before, and a reader takes exactly these, however they arrive. -/
namespace RpcWire

/-- How values are laid out: the codec, and the version of the compact one. -/
inductive Format where
  | binary
  | compact (version : CompactVersion)
  deriving DecidableEq, Repr

namespace Format

def encoding : Format → Encoding
  | .binary => .binary
  | .compact _ => .compact

def compactVersion? : Format → Option CompactVersion
  | .binary => none
  | .compact version => some version

theorem ofWire_encoding (format : Format) : Encoding.ofWire format.encoding.toWire = format.encoding := by
  cases format with
  | binary => rfl
  | compact version => rfl

/-! ## Values without parts -/

def bool : Format → Bool → Bytes
  | .binary, value => [if value then 1 else 0]
  | .compact _, value => [if value then Compact.trueNibble else Compact.falseNibble]

def i16 : Format → Int16 → Bytes
  | .binary, value => Bytes.bigEndian 2 value.toUInt16.toNat
  | .compact _, value => Varint.encode (Zigzag.encode32 value.toInt32).toNat

def i32 : Format → Int32 → Bytes
  | .binary, value => Bytes.bigEndian 4 value.toUInt32.toNat
  | .compact _, value => Varint.encode (Zigzag.encode32 value).toNat

def i64 : Format → Int64 → Bytes
  | .binary, value => Bytes.bigEndian 8 value.toUInt64.toNat
  | .compact _, value => Varint.encode (Zigzag.encode64 value).toNat

/-- The versions of the compact codec differ in this alone. -/
def double : Format → UInt64 → Bytes
  | .compact .littleEndian, bits => Bytes.littleEndian 8 bits.toNat
  | _, bits => Bytes.bigEndian 8 bits.toNat

def size : Format → Nat → Bytes
  | .binary, size => Bytes.bigEndian 4 size
  | .compact _, size => Varint.encode size

def run (format : Format) (bytes : Bytes) : Bytes :=
  format.size bytes.length ++ bytes

def text (format : Format) (text : String) : Bytes :=
  format.run (Utf8.encode text)

/-! ## Heads -/

/-- The four bits of a shape; void, which has none, is never laid out. -/
def nibble (tag : Tag) : UInt8 :=
  (Compact.nibbleOfTag tag).getD 0

/-- The head of a field after field `last`: a step from it, or the number itself. -/
def compactFieldHead (last : Int16) (nibble : UInt8) (id : Int16) : Bytes :=
  let step := id.toInt - last.toInt
  if 1 ≤ step ∧ step ≤ 15 then [UInt8.ofNat (step.toNat * 16) ||| nibble]
  else nibble :: Varint.encode (Zigzag.encode32 id.toInt32).toNat

/-- Whether a value in a field takes no octets but those of the head of the field. -/
def inHead : Format → Value → Bool
  | .compact _, .bool _ => true
  | _, _ => false

def fieldHead (last id : Int16) : Format → Value → Bytes
  | .binary, value => value.tag.toByte :: Bytes.bigEndian 2 id.toUInt16.toNat
  | .compact _, .bool value =>
    compactFieldHead last (if value then Compact.trueNibble else Compact.falseNibble) id
  | .compact _, value => compactFieldHead last (nibble value.tag) id

def listHead : Format → ListHeader → Bytes
  | .binary, header => header.elem.toByte :: Bytes.bigEndian 4 header.size
  | .compact _, header =>
    if header.size ≤ 14 then [UInt8.ofNat (header.size * 16) ||| nibble header.elem]
    else (0xf0 ||| nibble header.elem) :: Varint.encode header.size

def mapHead : Format → MapHeader → Bytes
  | .binary, header => header.key.toByte :: header.value.toByte :: Bytes.bigEndian 4 header.size
  | .compact _, header =>
    if header.size = 0 then [0]
    else Varint.encode header.size ++ [nibble header.key <<< 4 ||| nibble header.value]

def message : Format → MessageHeader → Bytes
  | .binary, header =>
    Bytes.bigEndian 4 (Binary.version ||| header.kind.toByte.toUInt32).toNat ++
      (binary.text header.name ++ binary.i32 header.seqId)
  | .compact version, header =>
    Compact.mark :: (version.toByte ||| header.kind.toByte <<< 5) ::
      (Varint.encode header.seqId.toUInt32.toNat ++ (compact version).text header.name)

/-! ## Values -/

mutual

def value (format : Format) : Value → Bytes
  | .bool value => format.bool value
  | .byte value => [value.toUInt8]
  | .i16 value => format.i16 value
  | .i32 value => format.i32 value
  | .i64 value => format.i64 value
  | .double bits => format.double bits
  | .float bits => Bytes.bigEndian 4 bits.toNat
  | .binary bytes => format.run bytes
  | .struct fields => format.fields 0 fields
  | .map key value items => format.mapHead ⟨key, value, items.length⟩ ++ format.entries items
  | .set elem items => format.listHead ⟨elem, items.length⟩ ++ format.items items
  | .list elem items => format.listHead ⟨elem, items.length⟩ ++ format.items items

def fields (format : Format) (last : Int16) : List (Int16 × Value) → Bytes
  | [] => [0]
  | (id, value) :: rest =>
    fieldHead last id format value ++
      ((if format.inHead value then [] else format.value value) ++ format.fields id rest)

def entries (format : Format) : List (Value × Value) → Bytes
  | [] => []
  | (key, value) :: rest => format.value key ++ (format.value value ++ format.entries rest)

def items (format : Format) : List Value → Bytes
  | [] => []
  | item :: rest => format.value item ++ format.items rest

end

mutual

/-- What a reader makes of a value. An empty map in the compact encoding names no shapes; all else comes
back as it was. -/
def image (format : Format) : Value → Value
  | .struct fields => .struct (format.imageFields fields)
  | .map key value items =>
    if format ≠ .binary ∧ items = [] then .map .stop .stop [] else .map key value (format.imageEntries items)
  | .set elem items => .set elem (format.imageItems items)
  | .list elem items => .list elem (format.imageItems items)
  | other => other

def imageFields (format : Format) : List (Int16 × Value) → List (Int16 × Value)
  | [] => []
  | (id, value) :: rest => (id, format.image value) :: format.imageFields rest

def imageEntries (format : Format) : List (Value × Value) → List (Value × Value)
  | [] => []
  | (key, value) :: rest => (format.image key, format.image value) :: format.imageEntries rest

def imageItems (format : Format) : List Value → List Value
  | [] => []
  | item :: rest => format.image item :: format.imageItems rest

end

end Format

namespace Codec

def format : Codec → Format
  | .binary _ => .binary
  | .compact codec => .compact codec.version

def limits : Codec → Limits
  | .binary codec => codec.limits
  | .compact codec => codec.limits

end Codec
end RpcWire
