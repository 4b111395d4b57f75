import RpcWire.Value.Skip

/-! Faults on the wire: a struct with a message in field one and a kind in field two. -/
namespace RpcWire.Fault

def write (fault : Fault) : WireM Unit := do
  WireM.writeStructBegin
  WireM.writeFieldBegin ⟨.string, 1⟩
  WireM.writeText fault.message
  WireM.writeFieldBegin ⟨.i32, 2⟩
  WireM.writeI32 fault.kind.toWire
  WireM.writeFieldStop
  WireM.writeStructEnd

/-- Fields of another number or shape are skipped, and of two fields the later one counts. -/
def read (depth : Nat) : WireM Fault :=
  WireM.foldStruct ⟨.unknown, ""⟩ fun fault header =>
    match header.id, header.tag with
    | 1, .string => return { fault with message := ← WireM.readText }
    | 2, .i32 => return { fault with kind := .ofWire (← WireM.readI32) }
    | _, tag => do
      WireM.skip depth tag
      return fault

end RpcWire.Fault
