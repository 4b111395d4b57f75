import RpcWire.Proofs.Layout.Depth
import RpcWire.Proofs.Layout.Records

/-! Structs of which a reader knows some fields only. Whatever stands between these is passed over, and of those that
are known by number and shape the last one counts. -/
namespace RpcWire

namespace Utf8

def Spells (bytes : Bytes) : Prop := (decode? bytes).isSome

instance (bytes : Bytes) : Decidable (Spells bytes) := inferInstanceAs (Decidable (_ = true))

def spelling (bytes : Bytes) : String := (decode? bytes).getD ""

end Utf8

/-- On every channel that holds the octets, the action takes exactly them and gives the result, if the texts among them
are spelled right. Otherwise that is what fails. -/
def Settles {κ α : Type} (codec : κ) (act : CodecM κ α) (bytes : Bytes) (spelled : Prop) (result : α) (codec' : κ) :
    Prop :=
  (spelled → Reads codec act bytes result codec') ∧ (¬spelled → Breaks codec act bytes .invalidUtf8)

namespace Breaks
variable {α : Type} {bytes : Bytes} {err : WireError}

theorem binary {codec : Binary} {act : Binary.M α} (other : Compact.M α) (h : Breaks codec act bytes err) :
    Breaks (.binary codec) (WireM.dispatch act other) bytes err := by
  intro channel base rest later hs
  obtain ⟨after, hact⟩ := h hs
  exact ⟨⟨.binary after.codec, after.channel⟩, by simp only [WireM.dispatch, onPart, hact]⟩

theorem compact {codec : Compact} {act : Compact.M α} (other : Binary.M α) (h : Breaks codec act bytes err) :
    Breaks (.compact codec) (WireM.dispatch other act) bytes err := by
  intro channel base rest later hs
  obtain ⟨after, hact⟩ := h hs
  exact ⟨⟨.compact after.codec, after.channel⟩, by simp only [WireM.dispatch, onPart, hact]⟩

end Breaks

namespace Settles
variable {κ α β : Type} {codec codec' codec'' : κ} {act : CodecM κ α} {bytes more : Bytes} {spelled spelled' : Prop}
  {value : α} {result : β}

theorem of_reads (h : Reads codec act bytes value codec') (hspelled : spelled) :
    Settles codec act bytes spelled value codec' :=
  ⟨fun _ => h, fun hnot => absurd hspelled hnot⟩

theorem congr (h : Settles codec act bytes spelled value codec') (hiff : spelled' ↔ spelled) :
    Settles codec act bytes spelled' value codec' :=
  ⟨fun hs => h.1 (hiff.mp hs), fun hs => h.2 (mt hiff.mpr hs)⟩

theorem bind {next : α → CodecM κ β} (h : Settles codec act bytes spelled value codec')
    (h' : Settles codec' (next value) more spelled' result codec'') :
    Settles codec (act >>= next) (bytes ++ more) (spelled ∧ spelled') result codec'' := by
  refine ⟨fun hboth => (h.1 hboth.1).bind (h'.1 hboth.2), fun hnot => ?_⟩
  by_cases hs : spelled
  · exact Breaks.behind (h.1 hs) (h'.2 fun hs' => hnot ⟨hs, hs'⟩)
  · exact (h.2 hs).first

/-- Behind what has no texts. -/
theorem behind {next : α → CodecM κ β} (h : Reads codec act bytes value codec')
    (h' : Settles codec' (next value) more spelled result codec'') :
    Settles codec (act >>= next) (bytes ++ more) spelled result codec'' :=
  ((of_reads h trivial).bind h').congr (Iff.of_eq (true_and spelled)).symm

/-- What takes no more octets. -/
theorem ending {next : α → CodecM κ β} (h : Settles codec act bytes spelled value codec')
    (h' : Reads codec' (next value) [] result codec'') :
    Settles codec (act >>= next) bytes spelled result codec'' :=
  ⟨fun hs => (h.1 hs).ending h', fun hs => (h.2 hs).early⟩

theorem returning {f : α → β} (h : Settles codec act bytes spelled value codec') :
    Settles codec (act >>= fun value => Pure.pure (f value)) bytes spelled (f value) codec' :=
  h.ending (Reads.pure codec' (f value))

theorem sized {bytes : Bytes} (next : Nat → CodecM κ α)
    (h : ∀ size, bytes.length ≤ size → Settles codec (next size) bytes spelled value codec') :
    Settles codec (get >>= fun endpoint => next endpoint.channel.available) bytes spelled value codec' :=
  ⟨fun hs => Reads.sized next fun size hsize => (h size hsize).1 hs,
    fun hs => Breaks.sized next fun size hsize => (h size hsize).2 hs⟩

end Settles

private theorem Endpoint.settles_decodeText {κ : Type} (codec : κ) (bytes : Bytes) :
    Settles codec (decodeText bytes) [] (Utf8.Spells bytes) (Utf8.spelling bytes) codec := by
  rw [decodeText, Utf8.Spells, Utf8.spelling]
  cases Utf8.decode? bytes with
  | some text => exact .of_reads (Reads.pure codec text) rfl
  | none => exact ⟨fun h => absurd h Bool.false_ne_true, fun _ => Breaks.throw codec [] .invalidUtf8⟩

namespace WireM

/-- A text is read if its octets spell one, and they are taken all the same if they do not. -/
theorem settles_text (codec : Codec) {bytes : Bytes} (h : bytes.length ≤ Endpoint.maxSize)
    (hlimit : Endpoint.Within codec.limits.text bytes.length) :
    Settles codec readText (codec.format.run bytes) (Utf8.Spells bytes) (Utf8.spelling bytes) codec := by
  cases codec with
  | binary codec =>
    have hread := Settles.behind (codec.reads_run h hlimit) (Endpoint.settles_decodeText codec bytes)
    rw [List.append_nil] at hread
    exact ⟨fun hs => (hread.1 hs).binary _, fun hs => (hread.2 hs).binary _⟩
  | compact codec =>
    have hread := Settles.behind (codec.reads_run h hlimit) (Endpoint.settles_decodeText codec bytes)
    rw [List.append_nil] at hread
    exact ⟨fun hs => (hread.1 hs).compact _, fun hs => (hread.2 hs).compact _⟩

variable {β : Type} {step : β → FieldHeader → WireM β} {take : β → Int16 × Value → β} {Spelled : Int16 × Value → Prop}
  {fields : List (Int16 × Value)}

/-- The step of a fold takes one field in, wherever the field stands. -/
def TakesIn (step : β → FieldHeader → WireM β) (take : β → Int16 × Value → β) (Spelled : Int16 × Value → Prop)
    (field : Int16 × Value) : Prop :=
  ∀ acc (codec : Codec), codec.Idle → field.2.Legible codec.format codec.limits →
    Settles (codec.withHead field.2) (step acc ⟨field.2.tag, field.1⟩)
      (if codec.format.inHead field.2 then [] else codec.format.value field.2) (Spelled field) (take acc field) codec

/-- Fields are taken in one after the other, up to the first with a text that is none. -/
theorem settles_fieldHeads (hstep : ∀ field ∈ fields, TakesIn step take Spelled field) (acc : β) {most : Nat}
    (hmost : fields.length < most) {codec : Codec} (hidle : codec.Idle)
    (hlegible : ∀ field ∈ fields, field.2.Legible codec.format codec.limits) :
    ∃ last, Settles codec (foldFieldHeads step most acc) (codec.format.fields codec.lastField fields)
      (∀ field ∈ fields, Spelled field) (fields.foldl take acc) (codec.atField last) := by
  induction fields generalizing codec acc most with
  | nil =>
    obtain ⟨most, rfl⟩ := Nat.exists_eq_add_one_of_ne_zero (Nat.ne_of_gt hmost)
    refine ⟨codec.lastField, .of_reads ?_ (List.forall_mem_nil _)⟩
    have hsame : codec.atField codec.lastField = codec := by cases codec <;> rfl
    rw [hsame]
    exact (reads_stop codec).ending (Reads.pure codec _)
  | cons field rest ih =>
    obtain ⟨most, rfl⟩ := Nat.exists_eq_add_one_of_ne_zero (Nat.ne_of_gt (Nat.zero_lt_of_lt hmost))
    obtain ⟨hfirst, hothers⟩ := List.forall_mem_cons.mp hstep
    rw [← codec.format_atField field.1, ← codec.limits_atField field.1] at hlegible
    obtain ⟨hlegible', hrest⟩ := List.forall_mem_cons.mp hlegible
    have hidle' := hidle.atField field.1
    obtain ⟨last, htail⟩ := ih hothers (take acc field) (Nat.lt_of_succ_lt_succ hmost) hidle' hrest
    have hat : (codec.atField field.1).atField last = codec.atField last := by cases codec <;> rfl
    have hthis := hfirst acc _ hidle' hlegible'
    rw [Codec.format_atField] at hthis
    rw [hat, Codec.format_atField, Codec.fields_atField] at htail
    have hstop : field.2.tag ≠ .stop := by cases field.2 <;> simp [Value.tag]
    refine ⟨last, ?_⟩
    rw [foldFieldHeads, Format.fields, List.foldl_cons]
    refine .behind (reads_fieldBegin hidle field.1 field.2) ?_
    rw [if_neg hstop]
    exact (hthis.bind htail).congr List.forall_mem_cons

/-- A struct is taken in field by field, and the codec is then as it was. -/
theorem settles_foldStruct (hstep : ∀ field ∈ fields, TakesIn step take Spelled field) (init : β) {codec : Codec}
    (hidle : codec.Idle) (hlegible : (Value.struct fields).Legible codec.format codec.limits) :
    Settles codec (foldStruct init step) (codec.format.value (.struct fields)) (∀ field ∈ fields, Spelled field)
      (fields.foldl take init) codec := by
  refine .behind (reads_structBegin codec) (.sized (fun size => do
    let result ← foldFieldHeads step (size + 1) init
    readStructEnd
    return result) fun size hsize => ?_)
  have hmost : fields.length < size + 1 := Nat.lt_succ_of_lt (Nat.lt_of_lt_of_le (length_lt_fields _ _ _) hsize)
  have hfields (field : Int16 × Value) (hm : field ∈ fields) :
      field.2.Legible codec.inStruct.format codec.inStruct.limits := by
    rw [Codec.format_inStruct, Codec.limits_inStruct]
    exact hlegible.part (List.mem_map_of_mem hm : field.2 ∈ (Value.struct fields).parts)
  obtain ⟨last, hheads⟩ := settles_fieldHeads hstep init hmost hidle.inStruct hfields
  rw [Codec.lastField_inStruct, Codec.format_inStruct] at hheads
  exact hheads.ending ((reads_structEnd codec last).ending (Reads.pure codec _))

/-- The value of a field is read as it stands elsewhere, but for a truth value. -/
theorem settles_inField {act : WireM β} {codec : Codec} {value : Value} {spelled : Prop} {result : β}
    (hb : value.tag ≠ .bool) (h : Settles codec act (codec.format.value value) spelled result codec) :
    Settles (codec.withHead value) act (if codec.format.inHead value then [] else codec.format.value value) spelled
      result codec := by
  rw [Codec.withHead_of_not_bool hb, Value.inHead_of_not_bool _ hb]
  exact h

/-- A field of which nothing is taken in is passed over. -/
theorem settles_skip {value : Value} {depth : Nat} {codec : Codec} (hidle : codec.Idle)
    (hlegible : value.Legible codec.format codec.limits) (hdepth : value.height ≤ depth) (acc : β) {spelled : Prop}
    (hspelled : spelled) :
    Settles (codec.withHead value) (do
        skip depth value.tag
        return acc)
      (if codec.format.inHead value then [] else codec.format.value value) spelled acc codec :=
  .of_reads ((reads_skip_inField hidle hlegible hdepth).ending (Reads.pure codec acc)) hspelled

end WireM

/-! ## What the fields hold -/

namespace Value

def bytes? : Value → Option Bytes
  | .binary bytes => some bytes
  | _ => none

def i32? : Value → Option Int32
  | .i32 value => some value
  | _ => none

private theorem bytes?_eq_none {value : Value} (h : value.tag ≠ .string) : value.bytes? = none := by
  cases value <;> first | rfl | exact absurd rfl h

private theorem i32?_eq_none {value : Value} (h : value.tag ≠ .i32) : value.i32? = none := by
  cases value <;> first | rfl | exact absurd rfl h

theorem tag_eq_string {value : Value} (h : value.tag = .string) : ∃ bytes, value = .binary bytes := by
  cases value <;> simp_all [tag]

theorem tag_eq_i32 {value : Value} (h : value.tag = .i32) : ∃ content, value = .i32 content := by
  cases value <;> simp_all [tag]

end Value

section Held
variable {α β : Type}

/-- What a field holds for one who looks for a number and a shape. -/
def held (id : Int16) (view : Value → Option α) (field : Int16 × Value) : Option α :=
  if field.1 = id then view field.2 else none

def lastHeld (id : Int16) (view : Value → Option α) (fields : List (Int16 × Value)) : Option α :=
  (fields.filterMap (held id view)).getLast?

private theorem held_eq_none {id : Int16} {view : Value → Option α} {field : Int16 × Value}
    (h : field.1 = id → view field.2 = none) : held id view field = none := by
  unfold held
  split
  · next hid => exact h hid
  · rfl

private theorem held_bytes?_eq_none {id number : Int16} {value : Value}
    (h : number = id → value.tag = .string → False) :
    held id Value.bytes? (number, value) = none :=
  held_eq_none fun hid => Value.bytes?_eq_none (h hid)

theorem held_i32?_eq_none {id number : Int16} {value : Value} (h : number = id → value.tag = .i32 → False) :
    held id Value.i32? (number, value) = none :=
  held_eq_none fun hid => Value.i32?_eq_none (h hid)

/-- What every field of the number and shape replaces is in the end as the last of them has it. -/
theorem foldl_eq_lastHeld {γ : Type} {id : Int16} {view : Value → Option α} (take : β → Int16 × Value → β)
    (part : β → γ) (image : α → γ)
    (htake : ∀ acc field, part (take acc field) = ((held id view field).map image).getD (part acc))
    (fields : List (Int16 × Value)) (init : β) :
    part (fields.foldl take init) = ((lastHeld id view fields).map image).getD (part init) := by
  induction fields using List.reverseRecOn with
  | nil => rfl
  | append_singleton rest field ih =>
    rw [List.foldl_append, List.foldl_cons, List.foldl_nil, htake, ih, lastHeld, lastHeld, List.filterMap_append,
      List.getLast?_append]
    cases hf : held id view field <;> simp [hf]

end Held

def FirstSpelled (field : Int16 × Value) : Prop :=
  ∀ bytes, held 1 Value.bytes? field = some bytes → Utf8.Spells bytes

private theorem firstSpelled_text (bytes : Bytes) : FirstSpelled (1, .binary bytes) ↔ Utf8.Spells bytes := by
  simp [FirstSpelled, held, Value.bytes?]

private theorem firstSpelled_of_none {field : Int16 × Value} (h : held 1 Value.bytes? field = none) :
    FirstSpelled field := by
  intro bytes hheld
  rw [h] at hheld
  cases hheld

namespace Fault

def schema : List (Int16 × Tag) := [(1, .string), (2, .i32)]

def take (fault : Fault) (field : Int16 × Value) : Fault where
  kind := ((held 2 Value.i32? field).map .ofWire).getD fault.kind
  message := ((held 1 Value.bytes? field).map Utf8.spelling).getD fault.message

def ofFields (fields : List (Int16 × Value)) : Fault where
  kind := ((lastHeld 2 Value.i32? fields).map .ofWire).getD .unknown
  message := ((lastHeld 1 Value.bytes? fields).map Utf8.spelling).getD ""

private theorem foldl_take (fields : List (Int16 × Value)) :
    fields.foldl take ⟨.unknown, ""⟩ = ofFields fields := by
  have hkind := foldl_eq_lastHeld take Fault.kind FaultKind.ofWire (fun _ _ => rfl) fields ⟨.unknown, ""⟩
  have hmessage := foldl_eq_lastHeld take Fault.message Utf8.spelling (fun _ _ => rfl) fields ⟨.unknown, ""⟩
  rw [ofFields, ← hkind, ← hmessage]

private theorem settles_read {fields : List (Int16 × Value)} {codec : Codec} (hidle : codec.Idle)
    (hlegible : (Value.struct fields).Legible codec.format codec.limits) {depth : Nat}
    (hdepth : ∀ field ∈ fields, (field.1, field.2.tag) ∉ schema → field.2.height ≤ depth) :
    Settles codec (read depth) (codec.format.value (.struct fields)) (∀ field ∈ fields, FirstSpelled field)
      (ofFields fields) codec := by
  rw [← foldl_take]
  refine WireM.settles_foldStruct (fun field hm fault codec' hidle' hlegible' => ?_) _ hidle hlegible
  have hdepth' := hdepth field hm
  obtain ⟨id, value⟩ := field
  dsimp only
  split
  · next htag =>
    obtain ⟨bytes, rfl⟩ := Value.tag_eq_string htag
    obtain ⟨haccepts, hadmits⟩ := hlegible'.2.here
    exact WireM.settles_inField nofun ((WireM.settles_text codec' haccepts hadmits).returning.congr
      (firstSpelled_text bytes))
  · next htag =>
    obtain ⟨content, rfl⟩ := Value.tag_eq_i32 htag
    exact WireM.settles_inField nofun (.of_reads (WireM.reads_i32 codec' content).returning nofun)
  · next id _ _ hfirst hsecond =>
    have htext : held 1 Value.bytes? (id, value) = none := held_bytes?_eq_none hfirst
    have hcode : held 2 Value.i32? (id, value) = none := held_i32?_eq_none hsecond
    have hsame : fault.take (id, value) = fault := by
      rw [take, htext, hcode]
      rfl
    rw [hsame]
    refine WireM.settles_skip hidle' hlegible' (hdepth' ?_) fault (firstSpelled_of_none htext)
    simpa [schema] using ⟨hfirst, hsecond⟩

end Fault

namespace Search.Request

def schema : List (Int16 × Tag) := [(1, .string), (2, .i32), (3, .i32)]

def take (request : Request) (field : Int16 × Value) : Request where
  query := ((held 1 Value.bytes? field).map Utf8.spelling).getD request.query
  pageNumber := (held 2 Value.i32? field).getD request.pageNumber
  resultPerPage := (held 3 Value.i32? field).getD request.resultPerPage

def ofFields (fields : List (Int16 × Value)) : Request where
  query := ((lastHeld 1 Value.bytes? fields).map Utf8.spelling).getD ""
  pageNumber := (lastHeld 2 Value.i32? fields).getD 0
  resultPerPage := (lastHeld 3 Value.i32? fields).getD 0

private theorem foldl_take (fields : List (Int16 × Value)) : fields.foldl take {} = ofFields fields := by
  have hquery := foldl_eq_lastHeld take Request.query Utf8.spelling (fun _ _ => rfl) fields {}
  have hnumber := foldl_eq_lastHeld take Request.pageNumber id
    (fun _ _ => by rw [Option.map_id]; rfl) fields {}
  have hcount := foldl_eq_lastHeld take Request.resultPerPage id
    (fun _ _ => by rw [Option.map_id]; rfl) fields {}
  rw [Option.map_id, id] at hnumber hcount
  rw [ofFields, ← hquery, ← hnumber, ← hcount]

private theorem settles_read {fields : List (Int16 × Value)} {codec : Codec} (hidle : codec.Idle)
    (hlegible : (Value.struct fields).Legible codec.format codec.limits) {depth : Nat}
    (hdepth : ∀ field ∈ fields, (field.1, field.2.tag) ∉ schema → field.2.height ≤ depth) :
    Settles codec (read depth) (codec.format.value (.struct fields)) (∀ field ∈ fields, FirstSpelled field)
      (ofFields fields) codec := by
  rw [← foldl_take]
  refine WireM.settles_foldStruct (fun field hm request codec' hidle' hlegible' => ?_) _ hidle hlegible
  have hdepth' := hdepth field hm
  obtain ⟨id, value⟩ := field
  dsimp only
  split
  · next htag =>
    obtain ⟨bytes, rfl⟩ := Value.tag_eq_string htag
    obtain ⟨haccepts, hadmits⟩ := hlegible'.2.here
    exact WireM.settles_inField nofun ((WireM.settles_text codec' haccepts hadmits).returning.congr
      (firstSpelled_text bytes))
  · next htag =>
    obtain ⟨content, rfl⟩ := Value.tag_eq_i32 htag
    exact WireM.settles_inField nofun (.of_reads (WireM.reads_i32 codec' content).returning nofun)
  · next htag =>
    obtain ⟨content, rfl⟩ := Value.tag_eq_i32 htag
    exact WireM.settles_inField nofun (.of_reads (WireM.reads_i32 codec' content).returning nofun)
  · next number _ _ hfirst hsecond hthird =>
    have htext : held 1 Value.bytes? (number, value) = none := held_bytes?_eq_none hfirst
    have hnumber : held 2 Value.i32? (number, value) = none := held_i32?_eq_none hsecond
    have hcount : held 3 Value.i32? (number, value) = none := held_i32?_eq_none hthird
    have hsame : request.take (number, value) = request := by
      rw [take, htext, hnumber, hcount]
      rfl
    rw [hsame]
    refine WireM.settles_skip hidle' hlegible' (hdepth' ?_) request (firstSpelled_of_none htext)
    simpa [schema] using ⟨hfirst, hsecond, hthird⟩

end Search.Request

namespace Value

/-- What was written of a value is its layout, and it can be read within limits that admit it. -/
theorem legible_of_written {value : Value} (hwell : value.WellTyped) {writer writer' : Codec} (hwriter : writer.Idle)
    {blank written : Channel} (hwrite : value.write ⟨writer, blank⟩ = .ok () ⟨writer', written⟩) {bytes : Bytes}
    (hbytes : written.pending = blank.pending ++ bytes) {codec : Codec} (hformat : codec.format = writer.format)
    (hadmits : value.Throughout codec.limits.Admits) :
    bytes = codec.format.value value ∧ value.Legible codec.format codec.limits := by
  obtain ⟨haccepts, -, hafter⟩ := (writes_value value hwriter blank).eq_of_ok hwrite
  rw [← hformat] at haccepts hafter
  have hpending : written.pending = blank.pending ++ codec.format.value value := by
    rw [← show _ = written from congrArg Endpoint.channel hafter.symm]
    rfl
  exact ⟨List.append_cancel_left (hbytes.symm.trans hpending), hwell, haccepts.and hadmits⟩

end Value

def TextsSpelled (fields : List (Int16 × Value)) : Prop :=
  ∀ bytes, (1, Value.binary bytes) ∈ fields → Utf8.Spells bytes

private theorem forall_firstSpelled_iff {fields : List (Int16 × Value)} :
    (∀ field ∈ fields, FirstSpelled field) ↔ TextsSpelled fields := by
  constructor
  · intro h bytes hm
    exact (firstSpelled_text bytes).mp (h _ hm)
  · rintro h ⟨id, value⟩ hm
    by_cases hfirst : id = 1 ∧ value.tag = .string
    · obtain ⟨rfl, htag⟩ := hfirst
      obtain ⟨bytes, rfl⟩ := Value.tag_eq_string htag
      exact (firstSpelled_text bytes).mpr (h bytes hm)
    · exact firstSpelled_of_none (held_bytes?_eq_none fun hid htag => hfirst ⟨hid, htag⟩)

/-- What was written of a struct is read as a fault and as a request by the last field of each number and shape that
these have, whatever else is among the fields, as far as it can be passed over. A text in field one that is spelled
wrong is all that can fail. -/
theorem reads_by_known_fields {fields : List (Int16 × Value)} (hwell : (Value.struct fields).WellTyped)
    {writer writer' : Codec} (hwriter : writer.Idle) {blank written : Channel}
    (hwrite : (Value.struct fields).write ⟨writer, blank⟩ = .ok () ⟨writer', written⟩) {bytes : Bytes}
    (hbytes : written.pending = blank.pending ++ bytes) {codec : Codec} (hidle : codec.Idle)
    (hformat : codec.format = writer.format) (hadmits : (Value.struct fields).Throughout codec.limits.Admits)
    (depth : Nat) :
    ((∀ field ∈ fields, (field.1, field.2.tag) ∉ Fault.schema → field.2.height ≤ depth) →
      Settles codec (Fault.read depth) bytes (TextsSpelled fields) (Fault.ofFields fields) codec) ∧
    ((∀ field ∈ fields, (field.1, field.2.tag) ∉ Search.Request.schema → field.2.height ≤ depth) →
      Settles codec (Search.Request.read depth) bytes (TextsSpelled fields) (Search.Request.ofFields fields)
        codec) := by
  obtain ⟨rfl, hlegible⟩ := Value.legible_of_written hwell hwriter hwrite hbytes hformat hadmits
  rw [← forall_firstSpelled_iff]
  exact ⟨Fault.settles_read hidle hlegible, Search.Request.settles_read hidle hlegible⟩

/-- A struct with a text, a number, a truth value and a list where none is expected, delivered octet by octet: the later
text and the one number of a known shape are what counts. -/
theorem reads_struct_of_strange_fields : ∃ channel : Channel,
    channel = { transport := .raw {
      unread := [0x18, 2, 0x61, 0x62, 0x21, 0x05, 2, 18, 0x15, 12, 0x09, 80, 0x13, 1, 0x08, 2, 1, 0x63, 0, 0x77]
      chunk := some 1 } } ∧
    (∃ after, Fault.read 2 ⟨.compact {}, channel⟩ = .ok ⟨.internalError, "c"⟩ ⟨.compact {}, after⟩ ∧
      after.Holds channel [0x77] []) ∧
    ∃ after, Search.Request.read 2 ⟨.compact {}, channel⟩ = .ok ⟨"c", 6, 0⟩ ⟨.compact {}, after⟩ ∧
      after.Holds channel [0x77] [] := by
  let fields : List (Int16 × Value) := [(1, .binary [0x61, 0x62]), (3, .bool true), (1, .i32 9), (2, .i32 6),
    (40, .list .byte [.byte 1]), (1, .binary [0x63])]
  have hparts {p : Value → Prop} (hstruct : p (.struct fields)) (htext : p (.binary [0x61, 0x62]))
      (hbool : p (.bool true)) (hnumber : ∀ value, p (.i32 value)) (hlist : p (.list .byte [.byte 1]))
      (hbyte : p (.byte 1)) (hlast : p (.binary [0x63])) : (Value.struct fields).Throughout p := by
    refine Value.throughout_struct.mpr ⟨hstruct, ?_⟩
    have hinner : (Value.list .byte [.byte 1]).Throughout p :=
      Value.throughout_list.mpr ⟨hlist, by simpa using Value.throughout_of_parts hbyte rfl⟩
    simpa [fields] using ⟨Value.throughout_of_parts htext rfl, Value.throughout_of_parts hbool rfl,
      Value.throughout_of_parts (hnumber 9) rfl, Value.throughout_of_parts (hnumber 6) rfl, hinner,
      Value.throughout_of_parts hlast rfl⟩
  have hidle : (Codec.compact {}).Idle := ⟨rfl, rfl⟩
  have hwrite := (Value.writes_value (.struct fields) hidle { transport := .raw {} }).1
    (hparts trivial (by decide : _ ≤ _) trivial (fun _ => trivial) ⟨by decide, .inr (by decide)⟩ trivial
      (by decide : _ ≤ _))
  have hread := reads_by_known_fields
    (by simp [fields, Value.WellTyped, Value.FieldsWellTyped, Value.ItemsWellTyped, Value.tag, Endpoint.maxSize])
    hidle hwrite rfl hidle rfl
    (hparts trivial (.inl rfl) trivial (fun _ => trivial) (.inl rfl) trivial (.inl rfl)) 2
  have hspelled : TextsSpelled fields := by
    intro bytes hm
    simp only [fields, List.mem_cons, Prod.mk.injEq, Value.binary.injEq, reduceCtorEq, and_false, false_or, or_false,
      List.not_mem_nil] at hm
    rcases hm with ⟨-, rfl⟩ | ⟨-, rfl⟩ <;> decide +kernel
  let channel : Channel := { transport := .raw {
    unread := [0x18, 2, 0x61, 0x62, 0x21, 0x05, 2, 18, 0x15, 12, 0x09, 80, 0x13, 1, 0x08, 2, 1, 0x63, 0, 0x77]
    chunk := some 1 } }
  have hholds : channel.Holds channel (Format.value (.compact .littleEndian) (.struct fields) ++ [0x77]) [] := by
    refine .of_settled ?_
    decide +kernel
  have hfault : Fault.ofFields fields = ⟨.internalError, "c"⟩ := by decide +kernel
  have hrequest : Search.Request.ofFields fields = ⟨"c", 6, 0⟩ := by decide +kernel
  rw [hfault, hrequest] at hread
  exact ⟨channel, rfl, (hread.1 (by decide +kernel)).1 hspelled hholds,
    (hread.2 (by decide +kernel)).1 hspelled hholds⟩

end RpcWire
