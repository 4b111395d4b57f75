import RpcWire.Wire.Tag

/-! What stands at the head of a message, a field or a container, and the encodings a message can have. -/
namespace RpcWire

/-- Why a message is sent. -/
inductive MessageKind where
  | call | reply | exception | oneway
  deriving DecidableEq, Repr

namespace MessageKind

def toByte : MessageKind → UInt8
  | .call => 1
  | .reply => 2
  | .exception => 3
  | .oneway => 4

def ofByte? (byte : UInt8) : Option MessageKind :=
  [call, reply, exception, oneway].find? (·.toByte == byte)

def name : MessageKind → String
  | .call => "Call"
  | .reply => "Reply"
  | .exception => "Exception"
  | .oneway => "Oneway"

/-- Whether a caller sends it. -/
def isRequest : MessageKind → Bool
  | .call | .oneway => true
  | .reply | .exception => false

theorem ofByte?_toByte (kind : MessageKind) : ofByte? kind.toByte = some kind := by
  cases kind <;> decide

end MessageKind

/-- How messages are laid out; the numbers are those that an envelope carries. -/
inductive Encoding where
  | binary | json | compact
  | reserved (id : UInt32)
  deriving DecidableEq, Repr

namespace Encoding

def ofWire (id : UInt32) : Encoding :=
  if id = 0 then .binary else if id = 1 then .json else if id = 2 then .compact else .reserved id

def toWire : Encoding → UInt32
  | .binary => 0
  | .json => 1
  | .compact => 2
  | .reserved id => id

/-- The name that settings use. -/
def text : Encoding → String
  | .binary => "binary"
  | .json => "json"
  | .compact => "compact"
  | .reserved id => s!"reserved({id})"

/-- The name that errors use. -/
def label : Encoding → String
  | .binary => "Binary"
  | .json => "Json"
  | .compact => "Compact"
  | .reserved id => s!"Reserved({id})"

theorem toWire_ofWire (id : UInt32) : (ofWire id).toWire = id := by
  unfold ofWire
  split
  · simp_all [toWire]
  · split
    · simp_all [toWire]
    · split <;> simp_all [toWire]

end Encoding

/-- Head of a message: the method, the kind and the number that pairs a reply with its request. -/
structure MessageHeader where
  name : String
  kind : MessageKind
  seqId : Int32
  deriving DecidableEq, Repr

/-- Head of a field. The field that ends a struct has tag `stop` and number zero. -/
structure FieldHeader where
  tag : Tag
  id : Int16
  deriving DecidableEq, Repr

def FieldHeader.stop : FieldHeader := ⟨.stop, 0⟩

structure MapHeader where
  key : Tag
  value : Tag
  size : Nat
  deriving DecidableEq, Repr

/-- Head of a list or of a set. -/
structure ListHeader where
  elem : Tag
  size : Nat
  deriving DecidableEq, Repr

end RpcWire
