import RpcWire.Proofs.Layout.Skipping
import RpcWire.Proofs.Layout.ValueWriting
import RpcWire.Search.Wire
import RpcWire.Value.Fault

/-! Faults, search requests and search responses as values: their writers write those values, and their readers
read them back. -/
namespace RpcWire
open WireM

namespace Fault

def toValue (fault : Fault) : Value :=
  .struct [(1, .text fault.message), (2, .i32 fault.kind.toWire)]

theorem write_eq (fault : Fault) : fault.write = fault.toValue.write := by
  simp only [write, toValue, Value.write, Value.writeFields, bind_assoc, pure_bind]
  rfl

theorem throughout {p : Value → Prop} {fault : Fault} (hstruct : ∀ fields, p (.struct fields))
    (htext : p (.text fault.message)) (hnumber : ∀ value, p (.i32 value)) : fault.toValue.Throughout p := by
  refine Value.throughout_struct.mpr ⟨hstruct _, ?_⟩
  simpa using ⟨Value.throughout_of_parts htext rfl, Value.throughout_of_parts (hnumber _) rfl⟩

/-- A fault that can be laid out is well typed. -/
theorem wellTyped {fault : Fault} {format : Format} (h : fault.toValue.Throughout format.Accepts) :
    fault.toValue.WellTyped :=
  ⟨(h.part (List.mem_cons_self : Value.text fault.message ∈ fault.toValue.parts)).here, trivial, trivial⟩

theorem reads_read {fault : Fault} {codec : Codec} (hidle : codec.Idle)
    (h : fault.toValue.Legible codec.format codec.limits) (depth : Nat) :
    Reads codec (read depth) (codec.format.value fault.toValue) fault codec := by
  have htext := (h.part (List.mem_cons_self : Value.text fault.message ∈ fault.toValue.parts)).2.here
  refine Folds.reads_foldStruct hidle
    (.plain ⟨.unknown, fault.message⟩ nofun (fun codec' _ _ hlimits => ?_)
    (.plain fault nofun (fun codec' _ _ _ => ?_) (.nil fault)))
  · exact (reads_text codec' htext.1 (by rw [hlimits]; exact htext.2)).returning
  · apply (reads_i32 codec' fault.kind.toWire).ending
    rw [FaultKind.ofWire_toWire]
    exact Reads.pure codec' fault

end Fault

namespace Search

def Request.toValue (request : Request) : Value :=
  .struct [(1, .text request.query), (2, .i32 request.pageNumber), (3, .i32 request.resultPerPage)]

theorem Request.write_eq (request : Request) : request.write = request.toValue.write := by
  simp only [write, toValue, Value.write, Value.writeFields, bind_assoc, pure_bind]
  rfl

/-- A request is legible if its text is. -/
theorem Request.legible {request : Request} {limits : Limits}
    (htext : (Utf8.encode request.query).length ≤ Endpoint.maxSize)
    (hlimit : Endpoint.Within limits.text (Utf8.encode request.query).length) (format : Format) :
    request.toValue.Legible format limits := by
  refine ⟨⟨htext, trivial, trivial, trivial⟩, Value.throughout_struct.mpr ⟨⟨trivial, trivial⟩, ?_⟩⟩
  have hnumber (value : Int32) : (Value.i32 value).Throughout fun part => format.Accepts part ∧ limits.Admits part :=
    Value.throughout_of_parts ⟨trivial, trivial⟩ rfl
  have hquery : (Value.text request.query).Throughout fun part => format.Accepts part ∧ limits.Admits part :=
    Value.throughout_of_parts ⟨htext, hlimit⟩ rfl
  simpa using ⟨hquery, hnumber _, hnumber _⟩

theorem Request.reads_read {request : Request} {codec : Codec} (hidle : codec.Idle)
    (h : request.toValue.Legible codec.format codec.limits) (depth : Nat) :
    Reads codec (read depth) (codec.format.value request.toValue) request codec := by
  have htext := (h.part (List.mem_cons_self : Value.text request.query ∈ request.toValue.parts)).2.here
  refine Folds.reads_foldStruct hidle
    (.plain { query := request.query } nofun (fun codec' _ _ hlimits => ?_)
    (.plain { query := request.query, pageNumber := request.pageNumber } nofun (fun codec' _ _ _ => ?_)
    (.plain request nofun (fun codec' _ _ _ => ?_) (.nil request))))
  · exact (reads_text codec' htext.1 (by rw [hlimits]; exact htext.2)).returning
  · exact (reads_i32 codec' request.pageNumber).returning
  · exact (reads_i32 codec' request.resultPerPage).returning

def Response.fields (response : Response) : List (Int16 × Value) :=
  [(1, .list .string (response.results.map .text)), (2, .i32 response.total)]

def Response.toValue (response : Response) : Value := .struct response.fields

private theorem Response.writeTexts_eq (texts : List String) :
    writeTexts texts = Value.writeItems (texts.map .text) := by
  induction texts with
  | nil => rfl
  | cons text rest ih =>
    rw [writeTexts, ih]
    rfl

theorem Response.write_eq (response : Response) : response.write = response.toValue.write := by
  simp only [write, toValue, fields, Value.write, Value.writeFields, bind_assoc, pure_bind, writeTexts_eq,
    List.length_map]
  rfl

theorem Response.throughout {p : Value → Prop} {response : Response} (hstruct : ∀ fields, p (.struct fields))
    (hlist : p (.list .string (response.results.map .text))) (htext : ∀ text ∈ response.results, p (.text text))
    (hnumber : ∀ value, p (.i32 value)) : response.toValue.Throughout p := by
  have hresults : (Value.list .string (response.results.map .text)).Throughout p :=
    Value.throughout_list.mpr ⟨hlist, List.forall_mem_map.mpr fun text hm =>
      Value.throughout_of_parts (htext text hm) rfl⟩
  refine Value.throughout_struct.mpr ⟨hstruct _, ?_⟩
  simpa [Response.fields] using ⟨hresults, Value.throughout_of_parts (hnumber _) rfl⟩

/-- A response that can be laid out is well typed. -/
theorem Response.wellTyped {response : Response} {format : Format}
    (h : response.toValue.Throughout format.Accepts) : response.toValue.WellTyped := by
  have hlist := h.part (List.mem_cons_self : Value.list .string _ ∈ response.toValue.parts)
  have htexts (texts : List String) (h : ∀ item ∈ texts.map Value.text, item.Throughout format.Accepts) :
      Value.ItemsWellTyped .string (texts.map .text) := by
    induction texts with
    | nil => trivial
    | cons text rest ih =>
      obtain ⟨htext, hrest⟩ := List.forall_mem_cons.mp h
      exact ⟨rfl, htext.here, ih hrest⟩
  exact ⟨⟨hlist.here.1, htexts _ (Value.throughout_list.mp hlist).2⟩, trivial, trivial⟩

theorem Response.reads_read {response : Response} {codec : Codec} (hidle : codec.Idle)
    (h : response.toValue.Legible codec.format codec.limits) (depth : Nat) :
    Reads codec (read depth) (codec.format.value response.toValue) response codec := by
  have hlist := h.part (List.mem_cons_self : Value.list .string _ ∈ response.toValue.parts)
  obtain ⟨haccepts, hadmits⟩ := hlist.2.here
  refine Folds.reads_foldStruct hidle
    (.plain { results := response.results } nofun (fun codec' _ hformat hlimits => ?_)
    (.plain response nofun (fun codec' _ _ _ => ?_) (.nil response)))
  · have hhead : Reads codec' readListBegin (codec'.format.listHead ⟨.string, response.results.length⟩)
        ⟨.string, response.results.length⟩ codec' := by
      rw [← List.length_map Value.text]
      exact reads_listBegin codec' haccepts.1 (by rw [hlimits]; exact hadmits) (.inr nofun)
    have htexts : Reads codec' (collect readText response.results.length)
        (response.results.flatMap codec'.format.text) (response.results.map id) codec' := by
      apply Reads.collect
      intro text hm
      have htext := (hlist.part (List.mem_map_of_mem hm : Value.text text ∈ response.results.map .text)).2.here
      exact reads_text codec' htext.1 (by rw [hlimits]; exact htext.2)
    rw [List.map_id] at htexts
    have hlayout : codec'.format.value (.list .string (response.results.map .text)) =
        codec'.format.listHead ⟨.string, response.results.length⟩ ++
          response.results.flatMap codec'.format.text := by
      rw [Format.value, Format.items_eq_flatMap, List.flatMap_map, List.length_map]
      rfl
    rw [hlayout]
    exact hhead.bind htexts.returning
  · exact (reads_i32 codec' response.total).returning

end Search
end RpcWire
