import RpcWire.Proofs.Layout.Schemas
import RpcWire.Proofs.Tracking

/-! Search responses from structs that have more or other fields than a response. The reader asks a list in field one
for its length only, so that such a list must announce texts, or nothing, to be taken for what it is. -/
namespace RpcWire

namespace Value

def texts : Value → List Bytes
  | .list .string items => items.filterMap bytes?
  | _ => []

private theorem texts_eq_nil {value : Value} (h : value.tag ≠ .list) : value.texts = [] := by
  cases value <;> first | rfl | exact absurd rfl h

private theorem tag_eq_list {value : Value} (h : value.tag = .list) :
    ∃ elem items, value = .list elem items := by
  cases value <;> simp_all [tag]

/-- Items that are all texts are what is seen of them as texts. -/
theorem map_binary_filterMap {items : List Value} (h : ∀ item ∈ items, item.tag = .string) :
    (items.filterMap bytes?).map .binary = items := by
  induction items with
  | nil => rfl
  | cons item rest ih =>
    obtain ⟨hitem, hrest⟩ := List.forall_mem_cons.mp h
    obtain ⟨bytes, rfl⟩ := tag_eq_string hitem
    rw [List.filterMap_cons_some (rfl : bytes? (.binary bytes) = some bytes), List.map_cons, ih hrest]

end Value

def firstTexts (field : Int16 × Value) : List Bytes :=
  if field.1 = 1 then field.2.texts else []

private theorem firstTexts_eq_nil {id : Int16} {value : Value} (h : id = 1 → value.tag = .list → False) :
    firstTexts (id, value) = [] := by
  unfold firstTexts
  split
  · next hid => exact Value.texts_eq_nil (h hid)
  · rfl

/-- Items are read one after the other, up to the first that is spelled wrong. -/
theorem Settles.collect {β γ : Type} {codec : Codec} {act : WireM β} {layout : γ → Bytes} {image : γ → β}
    {Spelled : γ → Prop} {items : List γ}
    (h : ∀ item ∈ items, Settles codec act (layout item) (Spelled item) (image item) codec) :
    Settles codec (WireM.collect act items.length) (items.flatMap layout) (∀ item ∈ items, Spelled item)
      (items.map image) codec := by
  induction items with
  | nil => exact .of_reads (Reads.pure codec []) (List.forall_mem_nil _)
  | cons item rest ih =>
    obtain ⟨hitem, hrest⟩ := List.forall_mem_cons.mp h
    rw [List.flatMap_cons, List.map_cons, List.length_cons, WireM.collect]
    exact (hitem.bind (ih hrest).returning).congr List.forall_mem_cons

namespace WireM

/-- A list of texts is read by its length, whatever shape it announces. -/
theorem settles_texts {β : Type} {codec : Codec} {elem : Tag} {texts : List Bytes}
    (hlegible : (Value.list elem (texts.map .binary)).Legible codec.format codec.limits) (f : List String → β) :
    Settles codec (do
        let header ← readListBegin
        let texts ← collect readText header.size
        return f texts)
      (codec.format.value (.list elem (texts.map .binary))) (∀ bytes ∈ texts, Utf8.Spells bytes)
      (f (texts.map Utf8.spelling)) codec := by
  obtain ⟨haccepts, hadmits⟩ := hlegible.2.here
  have hhead : Reads codec readListBegin (codec.format.listHead ⟨elem, (texts.map Value.binary).length⟩)
      ⟨elem, (texts.map Value.binary).length⟩ codec := reads_listBegin codec haccepts.1 hadmits haccepts.2
  have htexts : Settles codec (collect readText texts.length) (texts.flatMap codec.format.run)
      (∀ bytes ∈ texts, Utf8.Spells bytes) (texts.map Utf8.spelling) codec := by
    refine Settles.collect fun bytes hm => ?_
    have hpart := (hlegible.part (List.mem_map_of_mem hm : Value.binary bytes ∈ texts.map .binary)).2.here
    exact settles_text codec hpart.1 hpart.2
  rw [Format.value, Format.items_eq_flatMap, List.flatMap_map]
  refine .behind hhead ?_
  rw [List.length_map]
  exact htexts.returning

end WireM

namespace Search.Response

def schema : List (Int16 × Tag) := [(1, .list), (2, .i32)]

def take (response : Response) (field : Int16 × Value) : Response where
  results := response.results ++ (firstTexts field).map Utf8.spelling
  total := (held 2 Value.i32? field).getD response.total

def ofFields (fields : List (Int16 × Value)) : Response where
  results := (fields.flatMap firstTexts).map Utf8.spelling
  total := (lastHeld 2 Value.i32? fields).getD 0

private theorem results_foldl (fields : List (Int16 × Value)) (response : Response) :
    (fields.foldl take response).results = response.results ++ (fields.flatMap firstTexts).map Utf8.spelling := by
  induction fields generalizing response with
  | nil => exact (List.append_nil _).symm
  | cons field rest ih =>
    rw [List.foldl_cons, ih, take, List.flatMap_cons, List.map_append, List.append_assoc]

private theorem foldl_take (fields : List (Int16 × Value)) : fields.foldl take {} = ofFields fields := by
  have hresults := results_foldl fields {}
  have htotal := foldl_eq_lastHeld take Response.total id (fun _ _ => by rw [Option.map_id]; rfl) fields {}
  rw [Option.map_id, id] at htotal
  rw [List.nil_append] at hresults
  rw [ofFields, ← hresults, ← htotal]

def Announced (field : Int16 × Value) : Prop :=
  ∀ elem items, field = (1, .list elem items) → elem = .string ∨ items = []

private theorem Announced.eq_map {elem : Tag} {items : List Value} (h : Announced (1, .list elem items))
    (hwell : (Value.list elem items).WellTyped) : items = (firstTexts (1, .list elem items)).map .binary := by
  rw [Value.WellTyped] at hwell
  rcases h elem items rfl with rfl | rfl
  · exact (Value.map_binary_filterMap fun item hm => (Value.wellTyped_item hwell.2 item hm).1).symm
  · cases elem <;> rfl

/-- A list in field one adds its texts to the results. -/
theorem settles_list (response : Response) {codec : Codec} {elem : Tag} {items : List Value}
    (hlegible : (Value.list elem items).Legible codec.format codec.limits)
    (hannounced : Announced (1, .list elem items)) :
    Settles codec (do
        let list ← WireM.readListBegin
        let texts ← WireM.collect WireM.readText list.size
        return { response with results := response.results ++ texts })
      (codec.format.value (.list elem items)) (∀ bytes ∈ firstTexts (1, .list elem items), Utf8.Spells bytes)
      (response.take (1, .list elem items)) codec := by
  have hitems := hannounced.eq_map hlegible.1
  have htotal : held 2 Value.i32? (1, .list elem items) = none := rfl
  rw [take, htotal]
  generalize firstTexts (1, .list elem items) = texts at hitems
  subst hitems
  exact WireM.settles_texts hlegible fun texts => { response with results := response.results ++ texts }

private theorem take_number (response : Response) (content : Int32) :
    response.take (2, .i32 content) = { response with total := content } := by
  have htexts : firstTexts (2, .i32 content) = [] := rfl
  rw [take, htexts, List.map_nil, List.append_nil]
  rfl

private theorem settles_read {fields : List (Int16 × Value)} {codec : Codec} (hidle : codec.Idle)
    (hlegible : (Value.struct fields).Legible codec.format codec.limits) {depth : Nat}
    (hdepth : ∀ field ∈ fields, (field.1, field.2.tag) ∉ schema → field.2.height ≤ depth)
    (hannounced : ∀ field ∈ fields, Announced field) :
    Settles codec (read depth) (codec.format.value (.struct fields))
      (∀ field ∈ fields, ∀ bytes ∈ firstTexts field, Utf8.Spells bytes) (ofFields fields) codec := by
  rw [← foldl_take]
  refine WireM.settles_foldStruct (fun field hm response codec' hidle' hlegible' => ?_) _ hidle hlegible
  have hdepth' := hdepth field hm
  have hannounced' := hannounced field hm
  obtain ⟨id, value⟩ := field
  dsimp only
  split
  · next htag =>
    obtain ⟨elem, items, rfl⟩ := Value.tag_eq_list htag
    exact WireM.settles_inField nofun (settles_list response hlegible' hannounced')
  · next htag =>
    obtain ⟨content, rfl⟩ := Value.tag_eq_i32 htag
    have hread := (WireM.reads_i32 codec' content).returning (f := fun total => { response with total })
    rw [← take_number] at hread
    exact WireM.settles_inField nofun (.of_reads hread nofun)
  · next id _ _ hfirst hsecond =>
    have htexts : firstTexts (id, value) = [] := firstTexts_eq_nil hfirst
    have htotal : held 2 Value.i32? (id, value) = none := held_i32?_eq_none hsecond
    have hsame : response.take (id, value) = response := by
      rw [take, htexts, htotal, List.map_nil, List.append_nil]
      rfl
    rw [hsame]
    refine WireM.settles_skip hidle' hlegible' (hdepth' ?_) response ?_
    · simpa [schema] using ⟨hfirst, hsecond⟩
    · rw [htexts]
      exact List.forall_mem_nil _

/-- What was written of a struct is read as a response by its known fields alone, whatever else is among the fields, as
far as it can be passed over, and if every list in field one that is not empty announces texts. Only a text in such a
list that is spelled wrong makes it fail. -/
theorem reads_announced_results {fields : List (Int16 × Value)} (hwell : (Value.struct fields).WellTyped)
    {writer writer' : Codec} (hwriter : writer.Idle) {blank written : Channel}
    (hwrite : (Value.struct fields).write ⟨writer, blank⟩ = .ok () ⟨writer', written⟩) {bytes : Bytes}
    (hbytes : written.pending = blank.pending ++ bytes) {codec : Codec} (hidle : codec.Idle)
    (hformat : codec.format = writer.format) (hadmits : (Value.struct fields).Throughout codec.limits.Admits)
    (hannounced : ∀ field ∈ fields, Announced field) {depth : Nat}
    (hdepth : ∀ field ∈ fields, (field.1, field.2.tag) ∉ schema → field.2.height ≤ depth) :
    Settles codec (read depth) bytes (∀ field ∈ fields, ∀ text ∈ firstTexts field, Utf8.Spells text) (ofFields fields)
      codec := by
  obtain ⟨rfl, hlegible⟩ := Value.legible_of_written hwell hwriter hwrite hbytes hformat hadmits
  exact settles_read hidle hlegible hdepth hannounced

/-- Two lists of texts, an empty list of numbers, and a text and a truth value where none is expected: the texts of both
lists are the results. -/
theorem reads_scattered_results : ∃ channel : Channel,
    channel = { transport := .raw {
      unread := [0x19, 0x18, 1, 0x61, 0x09, 2, 0x05, 0x15, 10, 0x08, 2, 1, 0x62, 0x21, 0x09, 2, 0x18, 1, 0x63, 0x15, 14,
        0, 0x77]
      chunk := some 1 } } ∧
    ∃ after, read 2 ⟨.compact {}, channel⟩ = .ok ⟨["a", "c"], 7⟩ ⟨.compact {}, after⟩ ∧
      after.Holds channel [0x77] [] := by
  let fields : List (Int16 × Value) := [(1, .list .string [.binary [0x61]]), (1, .list .i32 []), (2, .i32 5),
    (1, .binary [0x62]), (3, .bool true), (1, .list .string [.binary [0x63]]), (2, .i32 7)]
  have hparts {p : Value → Prop} (hstruct : p (.struct fields)) (hlist : ∀ text, p (.list .string [.binary [text]]))
      (htext : ∀ text, p (.binary [text])) (hempty : p (.list .i32 [])) (hnumber : ∀ value, p (.i32 value))
      (hbool : p (.bool true)) : (Value.struct fields).Throughout p := by
    have htexts (text : UInt8) : (Value.list .string [.binary [text]]).Throughout p :=
      Value.throughout_list.mpr ⟨hlist text, by simpa using Value.throughout_of_parts (htext text) rfl⟩
    refine Value.throughout_struct.mpr ⟨hstruct, ?_⟩
    simpa [fields] using ⟨htexts 0x61, Value.throughout_of_parts hempty rfl, Value.throughout_of_parts (hnumber 5) rfl,
      Value.throughout_of_parts (htext 0x62) rfl, Value.throughout_of_parts hbool rfl, htexts 0x63,
      Value.throughout_of_parts (hnumber 7) rfl⟩
  have hidle : (Codec.compact {}).Idle := ⟨rfl, rfl⟩
  have hwrite := (Value.writes_value (.struct fields) hidle { transport := .raw {} }).1
    (hparts trivial (fun _ => ⟨(by decide : 1 ≤ Endpoint.maxSize), .inr (by decide)⟩)
      (fun _ => (by decide : 1 ≤ Endpoint.maxSize)) ⟨by decide, .inr (by decide)⟩ (fun _ => trivial) trivial)
  have hread := reads_announced_results
    (by simp [fields, Value.WellTyped, Value.FieldsWellTyped, Value.ItemsWellTyped, Value.tag, Endpoint.maxSize])
    hidle hwrite rfl hidle rfl
    (hparts trivial (fun _ => .inl rfl) (fun _ => .inl rfl) (.inl rfl) (fun _ => trivial) trivial)
    (by simp [fields, Announced])
    (by decide +kernel : ∀ field ∈ fields, (field.1, field.2.tag) ∉ schema → field.2.height ≤ 2)
  have hspelled : ∀ field ∈ fields, ∀ text ∈ firstTexts field, Utf8.Spells text := by decide +kernel
  let channel : Channel := { transport := .raw {
    unread := [0x19, 0x18, 1, 0x61, 0x09, 2, 0x05, 0x15, 10, 0x08, 2, 1, 0x62, 0x21, 0x09, 2, 0x18, 1, 0x63, 0x15, 14,
        0, 0x77]
    chunk := some 1 } }
  have hholds : channel.Holds channel (Format.value (.compact .littleEndian) (.struct fields) ++ [0x77]) [] := by
    refine .of_settled ?_
    decide +kernel
  have hfields : ofFields fields = ⟨["a", "c"], 7⟩ := by decide +kernel
  rw [hfields] at hread
  exact ⟨channel, rfl, hread.1 hspelled hholds⟩

def foreignFields : List (Int16 × Value) := [(1, .list .i32 [.i32 5]), (2, .i32 7)]

/-- The number is taken for the length of a text, which swallows the next field: two octets of the struct are left, and
the total is lost. -/
theorem reads_number_as_text :
    let channel : Channel := { transport := .raw { unread := Format.binary.value (.struct foreignFields) } }
    (read 64).run' ⟨.binary {}, channel⟩ = some ⟨["\x08\x00\x02\x00\x00"], 0⟩ ∧
      (stateOf (read 64 ⟨.binary {}, channel⟩)).channel.readAhead = [7, 0] ∧ ofFields foreignFields = ⟨[], 7⟩ ∧
      ¬Settles (.binary {}) (read 64) (Format.binary.value (.struct foreignFields)) True (ofFields foreignFields)
        (.binary {}) := by
  intro channel
  have hread : (read 64).run' ⟨.binary {}, channel⟩ = some ⟨["\x08\x00\x02\x00\x00"], 0⟩ := by decide +kernel
  have hfields : ofFields foreignFields = ⟨[], 7⟩ := by decide +kernel
  refine ⟨hread, by decide +kernel, hfields, fun hsettles => ?_⟩
  have hholds : channel.Holds channel (Format.binary.value (.struct foreignFields) ++ []) [] := by
    refine .of_settled ?_
    decide +kernel
  obtain ⟨after, hact, -⟩ := hsettles.1 trivial hholds
  obtain ⟨after', hread'⟩ := exists_ok_of_run' hread
  rw [hact, hfields] at hread'
  cases hread'

end Search.Response
end RpcWire
