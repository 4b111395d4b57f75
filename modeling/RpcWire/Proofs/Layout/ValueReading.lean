import RpcWire.Proofs.Layout.CodecReading
import RpcWire.Proofs.Layout.CodecState

/-! Reading the layout of a value gives the value back and takes no octet more, in either encoding and however
the octets arrive. -/
namespace RpcWire

namespace Codec

/-- The codec after the head of a field, where the head may be the value. -/
def withHead : Value → Codec → Codec
  | .bool value, .compact codec => .compact { codec with pendingRead := some value }
  | _, codec => codec

theorem withHead_of_not_bool {value : Value} (h : value.tag ≠ .bool) (codec : Codec) :
    codec.withHead value = codec := by
  cases value <;> first | rfl | exact absurd rfl h

@[simp] theorem limits_atField (codec : Codec) (id : Int16) : (codec.atField id).limits = codec.limits := by
  cases codec <;> rfl

@[simp] theorem limits_inStruct (codec : Codec) : codec.inStruct.limits = codec.limits := by
  cases codec <;> rfl

end Codec

/-- Whether the value itself is within the limits, whatever its parts are. -/
def Limits.Admits (limits : Limits) : Value → Prop
  | .binary bytes => Endpoint.Within limits.text bytes.length
  | .map _ _ items => Endpoint.Within limits.container items.length
  | .set _ items => Endpoint.Within limits.container items.length
  | .list _ items => Endpoint.Within limits.container items.length
  | _ => True

namespace Reads
variable {α β : Type} {bytes : Bytes} {result : α}

theorem binary {codec codec' : Binary} {act : Binary.M α} (other : Compact.M α)
    (h : Reads codec act bytes result codec') :
    Reads (.binary codec) (WireM.dispatch act other) bytes result (.binary codec') := by
  intro channel base rest later hs
  obtain ⟨after, hact, ha⟩ := h hs
  exact ⟨after, by simp only [WireM.dispatch, onPart, hact], ha⟩

theorem compact {codec codec' : Compact} {act : Compact.M α} (other : Binary.M α)
    (h : Reads codec act bytes result codec') :
    Reads (.compact codec) (WireM.dispatch other act) bytes result (.compact codec') := by
  intro channel base rest later hs
  obtain ⟨after, hact, ha⟩ := h hs
  exact ⟨after, by simp only [WireM.dispatch, onPart, hact], ha⟩

/-- An action that leaves either codec as it is. -/
theorem dispatch (codec : Codec) (layout : Format → Bytes) {binary : Binary.M α} {compact : Compact.M α}
    (hb : ∀ codec : Binary, Reads codec binary (layout .binary) result codec)
    (hc : ∀ codec : Compact, Reads codec compact (layout (.compact codec.version)) result codec) :
    Reads codec (WireM.dispatch binary compact) (layout codec.format) result codec := by
  cases codec with
  | binary codec => exact (hb codec).binary compact
  | compact codec => exact (hc codec).compact binary

/-- What is read can still be consumed. -/
theorem sized {κ : Type} {codec codec' : κ} (next : Nat → CodecM κ α)
    (h : ∀ size, bytes.length ≤ size → Reads codec (next size) bytes result codec') :
    Reads codec (MonadState.get >>= fun endpoint => next endpoint.channel.available) bytes result codec' := by
  intro channel base rest later hs
  have hle : bytes.length ≤ channel.available := by
    have hall := hs.length_le_available
    rw [List.length_append] at hall
    omega
  exact h _ hle hs

theorem collect {codec : Codec} {act : WireM β} {γ : Type} {layout : γ → Bytes} {image : γ → β} {items : List γ}
    (h : ∀ item ∈ items, Reads codec act (layout item) (image item) codec) :
    Reads codec (WireM.collect act items.length) (items.flatMap layout) (items.map image) codec := by
  induction items with
  | nil => exact Reads.pure codec []
  | cons item rest ih =>
    obtain ⟨hitem, hrest⟩ := List.forall_mem_cons.mp h
    rw [List.flatMap_cons, List.map_cons, List.length_cons, WireM.collect]
    exact hitem.bind (ih hrest).returning

end Reads

namespace WireM
variable (codec : Codec)

theorem reads_structBegin : Reads codec readStructBegin [] () codec.inStruct := by
  cases codec with
  | binary codec => exact (Reads.pure codec ()).binary _
  | compact codec => exact codec.reads_structBegin.compact _

/-- The end of a struct goes back to the codec at its start, whatever field was the last. -/
theorem reads_structEnd (id : Int16) : Reads (codec.inStruct.atField id) readStructEnd [] () codec := by
  cases codec with
  | binary codec => exact (Reads.pure codec ()).binary _
  | compact codec => exact (Compact.reads_structEnd _ rfl).compact _

theorem reads_stop : Reads codec readFieldBegin [0] .stop codec := by
  cases codec with
  | binary codec => exact codec.reads_stop.binary _
  | compact codec => exact codec.reads_stop.compact _

theorem reads_fieldBegin {codec : Codec} (hidle : codec.Idle) (id : Int16) (value : Value) :
    Reads codec readFieldBegin (Format.fieldHead codec.lastField id codec.format value) ⟨value.tag, id⟩
      ((codec.atField id).withHead value) := by
  have hstop : value.tag ≠ .stop := by cases value <;> simp [Value.tag]
  cases codec with
  | binary codec =>
    have hsame : (Codec.binary codec).withHead value = .binary codec := by cases value <;> rfl
    rw [Codec.atField, hsame]
    exact (codec.reads_fieldBegin hstop id).binary _
  | compact codec =>
    by_cases hb : value.tag = .bool
    · obtain ⟨content, rfl⟩ := Value.tag_eq_bool hb
      cases content with
      | true =>
        exact (codec.reads_fieldBegin (rfl : Compact.tagOfNibble Compact.trueNibble = _) (by decide) (by decide)
          id).compact _
      | false =>
        exact (codec.reads_fieldBegin (rfl : Compact.tagOfNibble Compact.falseNibble = _) (by decide) (by decide)
          id).compact _
    · rw [Codec.withHead_of_not_bool hb]
      have h := codec.reads_fieldBegin (Compact.tagOfNibble_nibble value.tag_ne_void)
        (Compact.nibble_lt _) (Compact.nibble_ne_stop value.tag_ne_void hstop) id
      simp only [Compact.afterHead, hb, if_false] at h
      rw [← Value.fieldHead_of_not_bool hb] at h
      exact h.compact _

private theorem reads_bool {codec : Codec} (h : codec.Idle) (value : Bool) :
    Reads codec readBool (codec.format.bool value) value codec := by
  cases codec with
  | binary codec => exact (codec.reads_bool value).binary _
  | compact codec => exact (codec.reads_bool value h.2).compact _

/-- A truth value that came in the head of its field is not read again. -/
theorem reads_bool_withHead {codec : Compact} (h : (Codec.compact codec).Idle) (value : Bool) :
    Reads ((Codec.compact codec).withHead (.bool value)) readBool [] value (.compact codec) := by
  have hread := Compact.reads_pendingBool { codec with pendingRead := some value } rfl
  have hsame : { codec with pendingRead := none } = codec := by
    rw [← h.2]
  rw [hsame] at hread
  exact hread.compact _

private theorem reads_run {bytes : Bytes} (h : bytes.length ≤ Endpoint.maxSize)
    (hlimit : Endpoint.Within codec.limits.text bytes.length) :
    Reads codec readBytes (codec.format.run bytes) bytes codec := by
  cases codec with
  | binary codec => exact (codec.reads_run h hlimit).binary _
  | compact codec => exact (codec.reads_run h hlimit).compact _

theorem reads_text {text : String} (h : (Utf8.encode text).length ≤ Endpoint.maxSize)
    (hlimit : Endpoint.Within codec.limits.text (Utf8.encode text).length) :
    Reads codec readText (codec.format.text text) text codec := by
  cases codec with
  | binary codec => exact (codec.reads_text h hlimit).binary _
  | compact codec => exact (codec.reads_text h hlimit).compact _

theorem reads_i32 (value : Int32) : Reads codec readI32 (codec.format.i32 value) value codec :=
  Reads.dispatch codec (·.i32 value) (fun codec => codec.reads_i32 value) fun codec => codec.reads_i32 value

theorem reads_listBegin {header : ListHeader} (h : header.size ≤ Endpoint.maxSize)
    (hlimit : Endpoint.Within codec.limits.container header.size)
    (helem : codec.format = .binary ∨ header.elem ≠ .void) :
    Reads codec readListBegin (codec.format.listHead header) header codec := by
  cases codec with
  | binary codec => exact (codec.reads_listBegin h hlimit).binary _
  | compact codec => exact (codec.reads_listBegin h hlimit (helem.resolve_left (by simp [Codec.format]))).compact _

theorem reads_mapBegin {header : MapHeader} (h : header.size ≤ Endpoint.maxSize)
    (hlimit : Endpoint.Within codec.limits.container header.size)
    (hshapes : codec.format = .binary ∨ header.size ≠ 0 ∧ header.key ≠ .void ∧ header.value ≠ .void) :
    Reads codec readMapBegin (codec.format.mapHead header) header codec := by
  cases codec with
  | binary codec => exact (codec.reads_mapBegin h hlimit).binary _
  | compact codec =>
    obtain ⟨hsize, hkey, hvalue⟩ := hshapes.resolve_left (by simp [Codec.format])
    exact (codec.reads_mapBegin h hsize hlimit hkey hvalue).compact _

private theorem reads_mapBegin_zero (hformat : codec.format ≠ .binary) (key value : Tag) :
    Reads codec readMapBegin (codec.format.mapHead ⟨key, value, 0⟩) ⟨.stop, .stop, 0⟩ codec := by
  cases codec with
  | binary codec => exact absurd rfl hformat
  | compact codec => exact (codec.reads_mapBegin_zero key value).compact _

private theorem fieldHead_ne_nil (last id : Int16) (format : Format) (value : Value) :
    format.fieldHead last id value ≠ [] := by
  have hcompact (nibble : UInt8) : Format.compactFieldHead last nibble id ≠ [] := by
    simp only [Format.compactFieldHead]
    split <;> exact List.cons_ne_nil _ _
  cases format with
  | binary => exact List.cons_ne_nil _ _
  | compact version => cases value <;> exact hcompact _

/-- Every field takes an octet, and so does the end. -/
theorem length_lt_fields (format : Format) (last : Int16) (fields : List (Int16 × Value)) :
    fields.length < (format.fields last fields).length := by
  induction fields generalizing last with
  | nil => simp [Format.fields]
  | cons field rest ih =>
    have hhead := List.length_pos_iff.mpr (fieldHead_ne_nil last field.1 format field.2)
    have := ih field.1
    rw [Format.fields, List.length_append, List.length_append, List.length_cons]
    omega

/-- The steps of a fold over fields: each reads the value of one field, wherever the field stands. -/
inductive Folds {β : Type} (format : Format) (limits : Limits) (step : β → FieldHeader → WireM β) :
    β → List (Int16 × Value) → β → Prop where
  | nil (acc : β) : Folds format limits step acc [] acc
  | cons {acc final : β} (acc' : β) {field : Int16 × Value} {rest : List (Int16 × Value)}
    (first : ∀ codec : Codec, codec.Idle → codec.format = format → codec.limits = limits →
      Reads (codec.withHead field.2) (step acc ⟨field.2.tag, field.1⟩)
        (if format.inHead field.2 then [] else format.value field.2) acc' codec)
    (others : Folds format limits step acc' rest final) : Folds format limits step acc (field :: rest) final

/-- The value of a field is read as it stands elsewhere, but for a truth value. -/
theorem Folds.plain {β : Type} {format : Format} {limits : Limits} {step : β → FieldHeader → WireM β}
    {acc final : β} (acc' : β) {id : Int16} {value : Value} {rest : List (Int16 × Value)} (hb : value.tag ≠ .bool)
    (first : ∀ codec : Codec, codec.Idle → codec.format = format → codec.limits = limits →
      Reads codec (step acc ⟨value.tag, id⟩) (codec.format.value value) acc' codec)
    (others : Folds format limits step acc' rest final) :
    Folds format limits step acc ((id, value) :: rest) final := by
  refine .cons acc' (fun codec hidle hformat hlimits => ?_) others
  rw [Codec.withHead_of_not_bool hb, Value.inHead_of_not_bool _ hb, ← hformat]
  exact first codec hidle hformat hlimits

/-- Fields are read one after the other, up to the octet that ends them. -/
theorem Folds.reads_fieldHeads {β : Type} {step : β → FieldHeader → WireM β} {fields : List (Int16 × Value)}
    {acc final : β} {codec : Codec} (hidle : codec.Idle)
    (h : Folds codec.format codec.limits step acc fields final) {most : Nat} (hmost : fields.length < most) :
    ∃ last, Reads codec (foldFieldHeads step most acc) (codec.format.fields codec.lastField fields) final
      (codec.atField last) := by
  induction fields generalizing codec acc most with
  | nil =>
    obtain ⟨most, rfl⟩ := Nat.exists_eq_add_one_of_ne_zero (Nat.ne_of_gt hmost)
    cases h
    refine ⟨codec.lastField, ?_⟩
    have hsame : codec.atField codec.lastField = codec := by cases codec <;> rfl
    rw [hsame]
    exact (reads_stop codec).ending (Reads.pure codec _)
  | cons field rest ih =>
    obtain ⟨most, rfl⟩ := Nat.exists_eq_add_one_of_ne_zero (Nat.ne_of_gt (Nat.zero_lt_of_lt hmost))
    cases h with
    | cons _ first others =>
      obtain ⟨last, htail⟩ := ih (hidle.atField field.1) (by simpa using others) (Nat.lt_of_succ_lt_succ hmost)
      refine ⟨last, ?_⟩
      have hat : (codec.atField field.1).atField last = codec.atField last := by cases codec <;> rfl
      rw [Codec.format_atField, Codec.fields_atField, hat] at htail
      have hstop : field.2.tag ≠ .stop := by cases field.2 <;> simp [Value.tag]
      rw [foldFieldHeads, Format.fields]
      apply (reads_fieldBegin hidle field.1 field.2).bind
      rw [if_neg hstop]
      exact (first _ (hidle.atField field.1) (by simp) (by simp)).bind htail

/-- A struct is read field by field, and the codec is then as it was. -/
theorem Folds.reads_foldStruct {β : Type} {step : β → FieldHeader → WireM β} {fields : List (Int16 × Value)}
    {init final : β} {codec : Codec} (hidle : codec.Idle)
    (h : Folds codec.format codec.limits step init fields final) :
    Reads codec (foldStruct init step) (codec.format.value (.struct fields)) final codec := by
  rw [← codec.format_inStruct, ← codec.limits_inStruct] at h
  refine (reads_structBegin codec).after (Reads.sized (fun size => do
    let result ← foldFieldHeads step (size + 1) init
    readStructEnd
    return result) fun size hsize => ?_)
  obtain ⟨last, hread⟩ := h.reads_fieldHeads hidle.inStruct
    (Nat.lt_succ_of_lt (Nat.lt_of_lt_of_le (length_lt_fields _ _ _) hsize))
  rw [Codec.lastField_inStruct, Codec.format_inStruct] at hread
  exact hread.ending ((reads_structEnd codec last).ending (Reads.pure codec _))

end WireM

namespace Format

theorem items_eq_flatMap (format : Format) (items : List Value) :
    format.items items = items.flatMap format.value := by
  induction items with
  | nil => rfl
  | cons item rest ih => rw [Format.items, ih, List.flatMap_cons]

theorem entries_eq_flatMap (format : Format) (items : List (Value × Value)) :
    format.entries items = items.flatMap fun entry => format.value entry.1 ++ format.value entry.2 := by
  induction items with
  | nil => rfl
  | cons entry rest ih => rw [Format.entries, ih, List.flatMap_cons, List.append_assoc]

theorem imageItems_eq_map (format : Format) (items : List Value) :
    format.imageItems items = items.map format.image := by
  induction items with
  | nil => rfl
  | cons item rest ih => rw [Format.imageItems, ih, List.map_cons]

theorem imageEntries_eq_map (format : Format) (items : List (Value × Value)) :
    format.imageEntries items = items.map fun entry => (format.image entry.1, format.image entry.2) := by
  induction items with
  | nil => rfl
  | cons entry rest ih => rw [Format.imageEntries, ih, List.map_cons]

end Format

namespace Value
open WireM

/-- What a reader asks of a value: items of the shapes announced, shapes that the encoding has, and sizes within
the limits. -/
def Legible (format : Format) (limits : Limits) (value : Value) : Prop :=
  value.WellTyped ∧ value.Throughout fun part => format.Accepts part ∧ limits.Admits part

theorem Legible.part {format : Format} {limits : Limits} {value part : Value} (h : value.Legible format limits)
    (hm : part ∈ value.parts) : part.Legible format limits :=
  ⟨wellTyped_part h.1 hm, h.2.part hm⟩

/-- A value in a field is read like one that stands elsewhere, unless the head of the field was the value. -/
theorem reads_inField {depth : Nat} {codec : Codec} (hidle : codec.Idle) {value image : Value}
    (h : Reads codec (readWithin depth value.tag) (codec.format.value value) image codec)
    (hbool : ∀ content, value = .bool content → 0 < depth ∧ image = value) :
    Reads (codec.withHead value) (readWithin depth value.tag)
      (if codec.format.inHead value then [] else codec.format.value value) image codec := by
  by_cases hb : value.tag = .bool
  · obtain ⟨content, rfl⟩ := tag_eq_bool hb
    cases codec with
    | binary codec => exact h
    | compact codec =>
      obtain ⟨hdepth, rfl⟩ := hbool content rfl
      obtain ⟨depth, rfl⟩ := Nat.exists_eq_add_one_of_ne_zero (Nat.ne_of_gt hdepth)
      exact (reads_bool_withHead hidle content).returning
  · rw [Codec.withHead_of_not_bool hb, inHead_of_not_bool _ hb]
    exact h

/-- A list or a set is read item by item. -/
theorem reads_listed {codec : Codec} {depth : Nat} {elem : Tag} {items : List Value}
    (hsize : items.length ≤ Endpoint.maxSize) (hlimit : Endpoint.Within codec.limits.container items.length)
    (helem : codec.format = .binary ∨ elem ≠ .void)
    (h : ∀ item ∈ items, Reads codec (readWithin depth elem) (codec.format.value item) (codec.format.image item) codec)
    (make : Tag → List Value → Value) :
    Reads codec (do
        let header ← readListBegin
        return make header.elem (← collect (readWithin depth header.elem) header.size))
      (codec.format.listHead ⟨elem, items.length⟩ ++ codec.format.items items)
      (make elem (codec.format.imageItems items)) codec := by
  have hhead : Reads codec readListBegin (codec.format.listHead ⟨elem, items.length⟩) ⟨elem, items.length⟩ codec :=
    reads_listBegin codec hsize hlimit helem
  rw [Format.items_eq_flatMap, Format.imageItems_eq_map]
  exact hhead.bind (Reads.collect h).returning

/-- A map is read entry by entry. An empty one may come back without the shapes it announced. -/
theorem reads_mapped {codec : Codec} {depth : Nat} {key content : Tag} {items : List (Value × Value)}
    (hsize : items.length ≤ Endpoint.maxSize) (hlimit : Endpoint.Within codec.limits.container items.length)
    (hshapes : codec.format = .binary ∨ items = [] ∨ key ≠ .void ∧ content ≠ .void)
    (h : ∀ entry ∈ items,
      Reads codec (readWithin depth key) (codec.format.value entry.1) (codec.format.image entry.1) codec ∧
      Reads codec (readWithin depth content) (codec.format.value entry.2) (codec.format.image entry.2) codec) :
    Reads codec (readWithin (depth + 1) .map) (codec.format.value (.map key content items))
      (codec.format.image (.map key content items)) codec := by
  by_cases hempty : codec.format ≠ .binary ∧ items = []
  · obtain ⟨hformat, rfl⟩ := hempty
    rw [Format.image, if_pos ⟨hformat, rfl⟩, Format.value, Format.entries, List.append_nil]
    exact (reads_mapBegin_zero codec hformat key content).ending (Reads.pure codec _)
  · rw [Format.image, if_neg hempty, Format.value, Format.entries_eq_flatMap, Format.imageEntries_eq_map]
    have hshapes' : codec.format = .binary ∨ items.length ≠ 0 ∧ key ≠ .void ∧ content ≠ .void := by
      by_cases hf : codec.format = .binary
      · exact .inl hf
      · have hne : items ≠ [] := fun he => hempty ⟨hf, he⟩
        exact .inr ⟨mt List.length_eq_zero_iff.mp hne, (hshapes.resolve_left hf).resolve_left hne⟩
    have hhead : Reads codec readMapBegin (codec.format.mapHead ⟨key, content, items.length⟩) _ codec :=
      reads_mapBegin codec hsize hlimit hshapes'
    have hentry : ∀ entry ∈ items, Reads codec
        (do
          let first ← readWithin depth key
          return (first, ← readWithin depth content))
        (codec.format.value entry.1 ++ codec.format.value entry.2)
        (codec.format.image entry.1, codec.format.image entry.2) codec :=
      fun entry hm => (h entry hm).1.bind (h entry hm).2.returning
    exact hhead.bind (Reads.collect hentry).returning

/-- The fields of a struct are gathered one before the other. -/
theorem folds_fields {format : Format} {limits : Limits} {depth : Nat} {fields : List (Int16 × Value)}
    (h : ∀ field ∈ fields, ∀ codec : Codec, codec.Idle → codec.format = format → codec.limits = limits →
      Reads (codec.withHead field.2) (readWithin depth field.2.tag)
        (if format.inHead field.2 then [] else format.value field.2) (format.image field.2) codec)
    (acc : List (Int16 × Value)) :
    Folds format limits (fun fields header => do return (header.id, ← readWithin depth header.tag) :: fields)
      acc fields ((format.imageFields fields).reverse ++ acc) := by
  induction fields generalizing acc with
  | nil => exact Folds.nil acc
  | cons field rest ih =>
    obtain ⟨hfield, hrest⟩ := List.forall_mem_cons.mp h
    rw [Format.imageFields, List.reverse_cons, List.append_assoc]
    exact Folds.cons _ (fun codec hidle hformat hlimits => (hfield codec hidle hformat hlimits).returning)
      (ih hrest _)

private theorem height_pos (value : Value) : 0 < value.height := by
  cases value <;> simp [height]

/-- A value is read back from its layout, if as many levels of nesting as it has are allowed. -/
theorem reads_value (value : Value) : ∀ {depth : Nat} {codec : Codec}, codec.Idle →
    value.Legible codec.format codec.limits → value.height ≤ depth →
    Reads codec (readWithin depth value.tag) (codec.format.value value) (codec.format.image value) codec := by
  induction value using parts_induction with
  | step value ih =>
    intro depth codec hidle hlegible hdepth
    have hpart (part : Value) (hm : part ∈ value.parts) {depth : Nat} {codec' : Codec} (hidle : codec'.Idle)
        (hformat : codec'.format = codec.format) (hlimits : codec'.limits = codec.limits)
        (hle : part.height ≤ depth) : Reads codec' (readWithin depth part.tag) (codec.format.value part)
          (codec.format.image part) codec' := by
      rw [← hformat]
      exact ih part hm hidle (by rw [hformat, hlimits]; exact hlegible.part hm) hle
    obtain ⟨depth, rfl⟩ := Nat.exists_eq_add_one_of_ne_zero
      (Nat.ne_of_gt (Nat.lt_of_lt_of_le value.height_pos hdepth))
    have hwell := hlegible.1
    obtain ⟨haccepts, hadmits⟩ := hlegible.2.here
    cases value with
    | struct fields =>
      have hfields : ∀ field ∈ fields, ∀ codec' : Codec, codec'.Idle → codec'.format = codec.format →
          codec'.limits = codec.limits → Reads (codec'.withHead field.2) (readWithin depth field.2.tag)
            (if codec.format.inHead field.2 then [] else codec.format.value field.2)
            (codec.format.image field.2) codec' := by
        intro field hm codec' hidle' hformat hlimits
        have hheight : field.2.height ≤ depth :=
          Nat.le_trans (height_field hm) (Nat.le_of_succ_le_succ (by rwa [height] at hdepth))
        have hvalue := hpart field.2 (List.mem_map_of_mem hm) hidle' hformat hlimits hheight
        rw [← hformat] at hvalue ⊢
        exact reads_inField hidle' hvalue fun content he =>
          ⟨Nat.lt_of_lt_of_le (height_pos _) hheight, by rw [he]; rfl⟩
      apply ((folds_fields hfields []).reads_foldStruct hidle).ending
      rw [List.append_nil, List.reverse_reverse, Format.image]
      exact Reads.pure codec _
    | map key content items =>
      rw [WellTyped] at hwell
      rw [height] at hdepth
      refine reads_mapped haccepts.1 hadmits haccepts.2 fun entry hm => ?_
      obtain ⟨hkey, hvalue, -, -⟩ := wellTyped_entry hwell.2 entry hm
      obtain ⟨hkeyle, hvaluele⟩ := height_entry hm
      constructor
      · rw [← hkey]
        exact hpart entry.1 (List.mem_flatMap.mpr ⟨entry, hm, by simp⟩) hidle rfl rfl (by omega)
      · rw [← hvalue]
        exact hpart entry.2 (List.mem_flatMap.mpr ⟨entry, hm, by simp⟩) hidle rfl rfl (by omega)
    | set elem items =>
      rw [WellTyped] at hwell
      rw [height] at hdepth
      rw [Format.image, Format.value]
      refine reads_listed haccepts.1 hadmits haccepts.2 (fun item hm => ?_) .set
      have := height_item hm
      rw [← (wellTyped_item hwell.2 item hm).1]
      exact hpart item hm hidle rfl rfl (by omega)
    | list elem items =>
      rw [WellTyped] at hwell
      rw [height] at hdepth
      rw [Format.image, Format.value]
      refine reads_listed haccepts.1 hadmits haccepts.2 (fun item hm => ?_) .list
      have := height_item hm
      rw [← (wellTyped_item hwell.2 item hm).1]
      exact hpart item hm hidle rfl rfl (by omega)
    | binary bytes => exact (reads_run codec haccepts hadmits).returning
    | bool content => exact (reads_bool hidle content).returning
    | byte content =>
      exact (Reads.dispatch codec (fun _ => [content.toUInt8]) (fun codec => codec.reads_byte content)
        fun codec => codec.reads_byte content).returning
    | i16 content =>
      exact (Reads.dispatch codec (·.i16 content) (fun codec => codec.reads_i16 content)
        fun codec => codec.reads_i16 content).returning
    | i32 content => exact (reads_i32 codec content).returning
    | i64 content =>
      exact (Reads.dispatch codec (·.i64 content) (fun codec => codec.reads_i64 content)
        fun codec => codec.reads_i64 content).returning
    | double bits =>
      exact (Reads.dispatch codec (·.double bits) (fun codec => codec.reads_double bits)
        fun codec => codec.reads_double bits).returning
    | float bits =>
      exact (Reads.dispatch codec (fun _ => Bytes.bigEndian 4 bits.toNat) (fun codec => codec.reads_float bits)
        fun codec => codec.reads_float bits).returning

private theorem length_fields_pos (format : Format) (last : Int16) (fields : List (Int16 × Value)) :
    0 < (format.fields last fields).length :=
  Nat.zero_lt_of_lt (length_lt_fields format last fields)

private theorem fieldsHeight_lt_length {format : Format} {fields : List (Int16 × Value)}
    (h : ∀ field ∈ fields, field.2.height ≤ (format.value field.2).length) (last : Int16) :
    fieldsHeight fields < (format.fields last fields).length := by
  induction fields generalizing last with
  | nil => exact length_fields_pos format last []
  | cons field rest ih =>
    obtain ⟨hfield, hrest⟩ := List.forall_mem_cons.mp h
    have hhead := List.length_pos_iff.mpr (fieldHead_ne_nil last field.1 format field.2)
    have htail := ih hrest field.1
    rw [Format.fields, fieldsHeight, List.length_append, List.length_append]
    by_cases hin : format.inHead field.2 = true
    · have hone : field.2.height = 1 := by
        cases format <;> cases hv : field.2 <;> simp_all [Format.inHead, height]
      rw [if_pos hin, List.length_nil]
      omega
    · rw [if_neg hin]
      omega

private theorem entriesHeight_le_length {format : Format} {items : List (Value × Value)}
    (h : ∀ entry ∈ items, ∀ part ∈ [entry.1, entry.2], part.height ≤ (format.value part).length) :
    entriesHeight items ≤ (format.entries items).length := by
  induction items with
  | nil => exact Nat.le_refl 0
  | cons entry rest ih =>
    obtain ⟨hentry, hrest⟩ := List.forall_mem_cons.mp h
    have hkey := hentry entry.1 (by simp)
    have hvalue := hentry entry.2 (by simp)
    have htail := ih hrest
    rw [Format.entries, entriesHeight, List.length_append, List.length_append]
    omega

private theorem itemsHeight_le_length {format : Format} {items : List Value}
    (h : ∀ item ∈ items, item.height ≤ (format.value item).length) :
    itemsHeight items ≤ (format.items items).length := by
  induction items with
  | nil => exact Nat.le_refl 0
  | cons item rest ih =>
    obtain ⟨hitem, hrest⟩ := List.forall_mem_cons.mp h
    have htail := ih hrest
    rw [Format.items, itemsHeight, List.length_append]
    omega

private theorem length_listHead_pos (format : Format) (header : ListHeader) :
    0 < (format.listHead header).length := by
  cases format with
  | binary => simp [Format.listHead]
  | compact version =>
    rw [Format.listHead]
    split <;> simp

private theorem length_mapHead_pos (format : Format) (header : MapHeader) :
    0 < (format.mapHead header).length := by
  cases format with
  | binary => simp [Format.mapHead]
  | compact version =>
    rw [Format.mapHead]
    split <;> simp

private theorem length_run_pos (format : Format) (bytes : Bytes) : 0 < (format.run bytes).length := by
  cases format with
  | binary =>
    simp only [Format.run, Format.size, List.length_append, Bytes.length_bigEndian]
    omega
  | compact version =>
    have := Varint.length_encode_pos bytes.length
    simp only [Format.run, Format.size, List.length_append]
    omega

/-- Every level of nesting takes an octet. -/
theorem height_le_length (format : Format) (value : Value) : value.height ≤ (format.value value).length := by
  induction value using parts_induction with
  | step value ih =>
    cases value with
    | struct fields =>
      rw [height, Format.value]
      exact fieldsHeight_lt_length (fun field hm => ih _ (List.mem_map_of_mem hm)) 0
    | map key content items =>
      have hitems := entriesHeight_le_length fun entry hm part hp => ih part (List.mem_flatMap.mpr ⟨entry, hm, hp⟩)
      have hhead := length_mapHead_pos format ⟨key, content, items.length⟩
      rw [height, Format.value, List.length_append]
      omega
    | set elem items =>
      have hitems : itemsHeight items ≤ (format.items items).length := itemsHeight_le_length fun item hm => ih item hm
      have hhead := length_listHead_pos format ⟨elem, items.length⟩
      rw [height, Format.value, List.length_append]
      omega
    | list elem items =>
      have hitems : itemsHeight items ≤ (format.items items).length := itemsHeight_le_length fun item hm => ih item hm
      have hhead := length_listHead_pos format ⟨elem, items.length⟩
      rw [height, Format.value, List.length_append]
      omega
    | binary bytes => exact length_run_pos format bytes
    | bool content => cases format <;> exact Nat.le_refl 1
    | byte content => exact Nat.le_refl 1
    | float bits => simp [height, Format.value]
    | double bits =>
      simp only [height, Format.value, Format.double]
      split <;> simp
    | i16 content =>
      cases format with
      | binary => simp [height, Format.value, Format.i16]
      | compact version => exact Varint.length_encode_pos _
    | i32 content =>
      cases format with
      | binary => simp [height, Format.value, Format.i32]
      | compact version => exact Varint.length_encode_pos _
    | i64 content =>
      cases format with
      | binary => simp [height, Format.value, Format.i64]
      | compact version => exact Varint.length_encode_pos _

/-- A value is read back from its layout, however deep it is. -/
theorem reads_whole {value : Value} {codec : Codec} (hidle : codec.Idle)
    (hlegible : value.Legible codec.format codec.limits) :
    Reads codec (read value.tag) (codec.format.value value) (codec.format.image value) codec :=
  Reads.sized (fun size => readWithin (size + 1) value.tag) fun _ hsize =>
    reads_value value hidle hlegible (Nat.le_succ_of_le (Nat.le_trans (height_le_length _ value) hsize))

end Value
end RpcWire
