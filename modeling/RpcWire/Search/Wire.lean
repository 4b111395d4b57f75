import RpcWire.Search
import RpcWire.Value.Skip

/-! Requests and responses of a search on the wire. -/
namespace RpcWire.Search

namespace Request

def write (request : Request) : WireM Unit := do
  WireM.writeStructBegin
  WireM.writeFieldBegin ⟨.string, 1⟩
  WireM.writeText request.query
  WireM.writeFieldBegin ⟨.i32, 2⟩
  WireM.writeI32 request.pageNumber
  WireM.writeFieldBegin ⟨.i32, 3⟩
  WireM.writeI32 request.resultPerPage
  WireM.writeFieldStop
  WireM.writeStructEnd

/-- Fields of another number or shape are skipped, and of two fields the later one counts. -/
def read (depth : Nat) : WireM Request :=
  WireM.foldStruct {} fun request header =>
    match header.id, header.tag with
    | 1, .string => return { request with query := ← WireM.readText }
    | 2, .i32 => return { request with pageNumber := ← WireM.readI32 }
    | 3, .i32 => return { request with resultPerPage := ← WireM.readI32 }
    | _, tag => do
      WireM.skip depth tag
      return request

end Request

namespace Response

def writeTexts : List String → WireM Unit
  | [] => pure ()
  | text :: rest => do
    WireM.writeText text
    writeTexts rest

def write (response : Response) : WireM Unit := do
  WireM.writeStructBegin
  WireM.writeFieldBegin ⟨.list, 1⟩
  WireM.writeListBegin ⟨.string, response.results.length⟩
  writeTexts response.results
  WireM.writeFieldBegin ⟨.i32, 2⟩
  WireM.writeI32 response.total
  WireM.writeFieldStop
  WireM.writeStructEnd

/-- Fields of another number or shape are skipped. Every list in field one is read as texts and adds to the
results. -/
def read (depth : Nat) : WireM Response :=
  WireM.foldStruct {} fun response header =>
    match header.id, header.tag with
    | 1, .list => do
      let list ← WireM.readListBegin
      let texts ← WireM.collect WireM.readText list.size
      return { response with results := response.results ++ texts }
    | 2, .i32 => return { response with total := ← WireM.readI32 }
    | _, tag => do
      WireM.skip depth tag
      return response

end Response
end RpcWire.Search
