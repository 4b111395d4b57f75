import RpcWire.Codec

/-! Passing over a value whose shape is known and whose content nobody needs. -/
namespace RpcWire
namespace WireM

/-- Consumes one value of the given shape. `depth` is how many levels of nesting are allowed, the value's own
included. -/
def skip : Nat → Tag → WireM Unit
  | 0, _ => throw .depthLimit
  | depth + 1, tag =>
    match tag with
    | .bool => discard readBool
    | .byte => discard readByte
    | .i16 => discard readI16
    | .i32 => discard readI32
    | .i64 => discard readI64
    | .double => discard readDouble
    | .float => discard readFloat
    | .string => discard readBytes
    | .struct => foldStruct () fun _ header => skip depth header.tag
    | .map => do
      let header ← readMapBegin
      times (do skip depth header.key; skip depth header.value) header.size
    | .set => do
      let header ← readSetBegin
      times (skip depth header.elem) header.size
    | .list => do
      let header ← readListBegin
      times (skip depth header.elem) header.size
    | .stop | .void => throw (.invalidData (.cannotSkip tag))

/-- Consumes a struct of which nothing is expected. -/
def readVoid (depth : Nat) : WireM Unit :=
  foldStruct () fun _ header => skip depth header.tag

/-- The struct without fields. -/
def writeVoid : WireM Unit := do
  writeStructBegin
  writeFieldStop
  writeStructEnd

end WireM
end RpcWire
