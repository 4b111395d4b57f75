/-! The shapes a value on the wire can have, and the number that announces each shape. -/
namespace RpcWire

/-- Shape of an encoded value; `stop` ends a list of fields and `void` holds nothing. -/
inductive Tag where
  | stop | void | bool | byte | double | i16 | i32 | i64 | string | struct | map | set | list | float
  deriving DecidableEq, Repr

namespace Tag

/-- The number of a shape. -/
def toByte : Tag → UInt8
  | .stop => 0
  | .void => 1
  | .bool => 2
  | .byte => 3
  | .double => 4
  | .i16 => 6
  | .i32 => 8
  | .i64 => 10
  | .string => 11
  | .struct => 12
  | .map => 13
  | .set => 14
  | .list => 15
  | .float => 19

def all : List Tag :=
  [.stop, .void, .bool, .byte, .double, .i16, .i32, .i64, .string, .struct, .map, .set, .list, .float]

/-- The shape that a number announces. -/
def ofByte? (byte : UInt8) : Option Tag :=
  all.find? (·.toByte == byte)

def name : Tag → String
  | .stop => "Stop"
  | .void => "Void"
  | .bool => "Bool"
  | .byte => "Byte"
  | .double => "Double"
  | .i16 => "I16"
  | .i32 => "I32"
  | .i64 => "I64"
  | .string => "String"
  | .struct => "Struct"
  | .map => "Map"
  | .set => "Set"
  | .list => "List"
  | .float => "Float"

theorem ofByte?_toByte (tag : Tag) : ofByte? tag.toByte = some tag := by
  cases tag <;> decide

theorem toByte_of_ofByte? {byte : UInt8} {tag : Tag} (h : ofByte? byte = some tag) :
    tag.toByte = byte :=
  by simpa using List.find?_some h

end Tag
end RpcWire
