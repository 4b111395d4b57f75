import RpcWire.Value.Skip

/-! Values of every shape that can stand on the wire, their writer and their reader. -/
namespace RpcWire

/-- A value. Doubles and floats are kept as bit patterns, and texts as their octets. A container names the
shapes it announces, which need not be those of its items. -/
inductive Value where
  | bool (value : Bool)
  | byte (value : Int8)
  | i16 (value : Int16)
  | i32 (value : Int32)
  | i64 (value : Int64)
  | double (bits : UInt64)
  | float (bits : UInt32)
  | binary (bytes : Bytes)
  | struct (fields : List (Int16 × Value))
  | map (key value : Tag) (items : List (Value × Value))
  | set (elem : Tag) (items : List Value)
  | list (elem : Tag) (items : List Value)

namespace Value

/-- A text as a value. -/
def text (text : String) : Value := .binary (Utf8.encode text)

def tag : Value → Tag
  | .bool _ => .bool
  | .byte _ => .byte
  | .i16 _ => .i16
  | .i32 _ => .i32
  | .i64 _ => .i64
  | .double _ => .double
  | .float _ => .float
  | .binary _ => .string
  | .struct _ => .struct
  | .map _ _ _ => .map
  | .set _ _ => .set
  | .list _ _ => .list

/-! ## Well-typed values and nesting -/

mutual

/-- Every item has the shape that its container announces, and every container can be written. -/
def WellTyped : Value → Prop
  | .struct fields => FieldsWellTyped fields
  | .map key value items => items.length ≤ Endpoint.maxSize ∧ EntriesWellTyped key value items
  | .set elem items => items.length ≤ Endpoint.maxSize ∧ ItemsWellTyped elem items
  | .list elem items => items.length ≤ Endpoint.maxSize ∧ ItemsWellTyped elem items
  | .binary bytes => bytes.length ≤ Endpoint.maxSize
  | _ => True

def FieldsWellTyped : List (Int16 × Value) → Prop
  | [] => True
  | (_, value) :: rest => WellTyped value ∧ FieldsWellTyped rest

def EntriesWellTyped (keyTag valueTag : Tag) : List (Value × Value) → Prop
  | [] => True
  | (key, value) :: rest =>
    key.tag = keyTag ∧ value.tag = valueTag ∧ WellTyped key ∧ WellTyped value ∧
      EntriesWellTyped keyTag valueTag rest

def ItemsWellTyped (elem : Tag) : List Value → Prop
  | [] => True
  | item :: rest => item.tag = elem ∧ WellTyped item ∧ ItemsWellTyped elem rest

end

mutual

/-- Levels of nesting: one for a value without parts, one more than the highest part for the others. -/
def height : Value → Nat
  | .struct fields => fieldsHeight fields + 1
  | .map _ _ items => entriesHeight items + 1
  | .set _ items => itemsHeight items + 1
  | .list _ items => itemsHeight items + 1
  | _ => 1

def fieldsHeight : List (Int16 × Value) → Nat
  | [] => 0
  | (_, value) :: rest => max (height value) (fieldsHeight rest)

def entriesHeight : List (Value × Value) → Nat
  | [] => 0
  | (key, value) :: rest => max (max (height key) (height value)) (entriesHeight rest)

def itemsHeight : List Value → Nat
  | [] => 0
  | item :: rest => max (height item) (itemsHeight rest)

end

/-! ## Writing -/

mutual

def write : Value → WireM Unit
  | .bool value => WireM.writeBool value
  | .byte value => WireM.writeByte value
  | .i16 value => WireM.writeI16 value
  | .i32 value => WireM.writeI32 value
  | .i64 value => WireM.writeI64 value
  | .double bits => WireM.writeDouble bits
  | .float bits => WireM.writeFloat bits
  | .binary bytes => WireM.writeBytes bytes
  | .struct fields => do
    WireM.writeStructBegin
    writeFields fields
    WireM.writeFieldStop
    WireM.writeStructEnd
  | .map key value items => do
    WireM.writeMapBegin ⟨key, value, items.length⟩
    writeEntries items
  | .set elem items => do
    WireM.writeSetBegin ⟨elem, items.length⟩
    writeItems items
  | .list elem items => do
    WireM.writeListBegin ⟨elem, items.length⟩
    writeItems items

def writeFields : List (Int16 × Value) → WireM Unit
  | [] => pure ()
  | (id, value) :: rest => do
    WireM.writeFieldBegin ⟨value.tag, id⟩
    write value
    writeFields rest

def writeEntries : List (Value × Value) → WireM Unit
  | [] => pure ()
  | (key, value) :: rest => do
    write key
    write value
    writeEntries rest

def writeItems : List Value → WireM Unit
  | [] => pure ()
  | item :: rest => do
    write item
    writeItems rest

end

/-! ## Reading -/

/-- Reads a value of the given shape, nested in at most so many levels. Every level takes an octet. -/
def readWithin : Nat → Tag → WireM Value
  | 0, _ => throw .depthLimit
  | depth + 1, tag =>
    match tag with
    | .bool => return .bool (← WireM.readBool)
    | .byte => return .byte (← WireM.readByte)
    | .i16 => return .i16 (← WireM.readI16)
    | .i32 => return .i32 (← WireM.readI32)
    | .i64 => return .i64 (← WireM.readI64)
    | .double => return .double (← WireM.readDouble)
    | .float => return .float (← WireM.readFloat)
    | .string => return .binary (← WireM.readBytes)
    | .struct => do
      let fields ← WireM.foldStruct [] fun fields header => do
        return (header.id, ← readWithin depth header.tag) :: fields
      return .struct fields.reverse
    | .map => do
      let header ← WireM.readMapBegin
      let items ← WireM.collect (do
        let key ← readWithin depth header.key
        return (key, ← readWithin depth header.value)) header.size
      return .map header.key header.value items
    | .set => do
      let header ← WireM.readSetBegin
      return .set header.elem (← WireM.collect (readWithin depth header.elem) header.size)
    | .list => do
      let header ← WireM.readListBegin
      return .list header.elem (← WireM.collect (readWithin depth header.elem) header.size)
    | .stop | .void => throw (.invalidData (.cannotSkip tag))

/-- Reads a value of the given shape. -/
def read (tag : Tag) : WireM Value := do
  readWithin ((← get).channel.available + 1) tag

end Value
end RpcWire
