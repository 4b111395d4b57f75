import RpcWire.Proofs.Layout.Skipping
import RpcWire.Proofs.Layout.ValueWriting

/-! Skipping goes no deeper than it is allowed to: it takes exactly one value of at most so many levels, and stops
at the first part of any other value that lies deeper. -/
namespace RpcWire

/-- On every channel that holds the octets, the action fails in this one way. -/
def Breaks {κ α : Type} (codec : κ) (act : CodecM κ α) (bytes : Bytes) (err : WireError) : Prop :=
  ∀ ⦃channel base : Channel⦄ ⦃rest later : Bytes⦄, channel.Holds base (bytes ++ rest) later →
    ∃ after, act ⟨codec, channel⟩ = .error err after

namespace Breaks
variable {κ α β : Type} {codec codec' : κ} {act : CodecM κ α} {bytes more : Bytes} {value : α} {err : WireError}

theorem throw (codec : κ) (bytes : Bytes) (err : WireError) : Breaks codec (throw err : CodecM κ α) bytes err :=
  fun channel _ _ _ _ => ⟨⟨codec, channel⟩, rfl⟩

/-- A sequence breaks where its first action does. -/
theorem first {next : α → CodecM κ β} (h : Breaks codec act bytes err) :
    Breaks codec (act >>= next) (bytes ++ more) err := by
  intro channel base rest later hs
  rw [List.append_assoc] at hs
  obtain ⟨after, hact⟩ := h hs
  exact ⟨after, bind_of_error hact⟩

/-- A sequence breaks behind an action that reads what it finds. -/
theorem behind {next : α → CodecM κ β} (h : Reads codec act bytes value codec')
    (h' : Breaks codec' (next value) more err) : Breaks codec (act >>= next) (bytes ++ more) err := by
  intro channel base rest later hs
  rw [List.append_assoc] at hs
  obtain ⟨middle, hact, hm⟩ := h hs
  obtain ⟨after, hnext⟩ := h' hm
  exact ⟨after, by rw [bind_of_ok hact, hnext]⟩

/-- A sequence breaks whatever would follow. -/
theorem early {next : α → CodecM κ β} (h : Breaks codec act bytes err) : Breaks codec (act >>= next) bytes err := by
  have hall : Breaks codec (act >>= next) (bytes ++ []) err := h.first
  rwa [List.append_nil] at hall

/-- What is about to break can still be consumed. -/
theorem sized (next : Nat → CodecM κ α) (h : ∀ size, bytes.length ≤ size → Breaks codec (next size) bytes err) :
    Breaks codec (get >>= fun endpoint => next endpoint.channel.available) bytes err := by
  intro channel base rest later hs
  have hall := hs.length_le_available
  rw [List.length_append] at hall
  have hle : bytes.length ≤ channel.available := by omega
  exact h _ hle hs

/-- What breaks the run behind something that is read or breaks it itself. -/
theorem after {act act' : CodecM κ Unit} (h : Reads codec act bytes () codec ∨ Breaks codec act bytes err)
    (h' : Breaks codec act' more err) : Breaks codec (do act; act') (bytes ++ more) err :=
  h.elim (fun hreads => behind hreads h') fun hbreaks => hbreaks.first

/-- Of items that are each read or break, one that breaks ends the run. -/
theorem times {γ : Type} {codec : Codec} {act : WireM Unit} {layout : γ → Bytes} {items : List γ}
    (heach : ∀ item ∈ items, Reads codec act (layout item) () codec ∨ Breaks codec act (layout item) err)
    (hsome : ∃ item ∈ items, Breaks codec act (layout item) err) :
    Breaks codec (WireM.times act items.length) (items.flatMap layout) err := by
  induction items with
  | nil =>
    obtain ⟨item, hm, -⟩ := hsome
    cases hm
  | cons item rest ih =>
    obtain ⟨hitem, hrest⟩ := List.forall_mem_cons.mp heach
    rw [List.flatMap_cons, List.length_cons, WireM.times]
    rcases hitem with hreads | hbreaks
    · by_cases hthis : Breaks codec act (layout item) err
      · exact hthis.first
      · refine behind hreads (ih hrest ?_)
        obtain ⟨other, hm, hother⟩ := hsome
        rcases List.mem_cons.mp hm with rfl | hm
        · exact absurd hother hthis
        · exact ⟨other, hm, hother⟩
    · exact hbreaks.first

end Breaks

namespace Value

private theorem lt_fieldsHeight {depth : Nat} {fields : List (Int16 × Value)}
    (h : depth < fieldsHeight fields) :
    ∃ field ∈ fields, depth < field.2.height := by
  induction fields with
  | nil => exact absurd h (Nat.not_lt_zero depth)
  | cons field rest ih =>
    rw [fieldsHeight] at h
    rcases (by omega : depth < field.2.height ∨ depth < fieldsHeight rest) with h | h
    · exact ⟨field, List.mem_cons_self, h⟩
    · obtain ⟨other, hm, hother⟩ := ih h
      exact ⟨other, List.mem_cons_of_mem _ hm, hother⟩

private theorem lt_entriesHeight {depth : Nat} {items : List (Value × Value)}
    (h : depth < entriesHeight items) :
    ∃ entry ∈ items, ∃ part ∈ [entry.1, entry.2], depth < part.height := by
  induction items with
  | nil => exact absurd h (Nat.not_lt_zero depth)
  | cons entry rest ih =>
    rw [entriesHeight] at h
    rcases (by omega : depth < entry.1.height ∨ depth < entry.2.height ∨ depth < entriesHeight rest) with h | h | h
    · exact ⟨entry, List.mem_cons_self, entry.1, by simp, h⟩
    · exact ⟨entry, List.mem_cons_self, entry.2, by simp, h⟩
    · obtain ⟨other, hm, hother⟩ := ih h
      exact ⟨other, List.mem_cons_of_mem _ hm, hother⟩

private theorem lt_itemsHeight {depth : Nat} {items : List Value} (h : depth < itemsHeight items) :
    ∃ item ∈ items, depth < item.height := by
  induction items with
  | nil => exact absurd h (Nat.not_lt_zero depth)
  | cons item rest ih =>
    rw [itemsHeight] at h
    rcases (by omega : depth < item.height ∨ depth < itemsHeight rest) with h | h
    · exact ⟨item, List.mem_cons_self, h⟩
    · obtain ⟨other, hm, hother⟩ := ih h
      exact ⟨other, List.mem_cons_of_mem _ hm, hother⟩

end Value

namespace WireM

private theorem breaks_skip_zero (codec : Codec) (tag : Tag) (bytes : Bytes) :
    Breaks codec (skip 0 tag) bytes .depthLimit :=
  Breaks.throw codec bytes .depthLimit

/-- A value in a field is skipped like one that stands elsewhere, unless the head of the field was the value. -/
theorem reads_skip_inField {value : Value} {depth : Nat} {codec : Codec} (hidle : codec.Idle)
    (hlegible : value.Legible codec.format codec.limits) (hdepth : value.height ≤ depth) :
    Reads (codec.withHead value) (skip depth value.tag)
      (if codec.format.inHead value then [] else codec.format.value value) () codec := by
  rw [skip_eq_read]
  refine (Value.reads_inField hidle (Value.reads_value value hidle hlegible hdepth) ?_).ending (Reads.pure codec ())
  rintro content rfl
  exact ⟨hdepth, rfl⟩

/-- A value too deep for its field breaks there as it does elsewhere. -/
theorem breaks_skip_inField {value : Value} {depth : Nat} {codec : Codec}
    (h : Breaks codec (skip depth value.tag) (codec.format.value value) .depthLimit) (hdeep : depth < value.height) :
    Breaks (codec.withHead value) (skip depth value.tag)
      (if codec.format.inHead value then [] else codec.format.value value) .depthLimit := by
  by_cases hb : value.tag = .bool
  · obtain ⟨content, rfl⟩ := Value.tag_eq_bool hb
    obtain rfl : depth = 0 := Nat.lt_one_iff.mp hdeep
    exact breaks_skip_zero _ _ _
  · rw [Codec.withHead_of_not_bool hb, Value.inHead_of_not_bool _ hb]
    exact h

/-- Fields are skipped up to the first that is too deep. -/
theorem breaks_fieldHeads {format : Format} {limits : Limits} {depth : Nat} {fields : List (Int16 × Value)}
    (hlegible : ∀ field ∈ fields, field.2.Legible format limits)
    (hbreaks : ∀ field ∈ fields, depth < field.2.height → ∀ codec : Codec, codec.Idle → codec.format = format →
      codec.limits = limits → Breaks codec (skip depth field.2.tag) (format.value field.2) .depthLimit)
    (hdeep : ∃ field ∈ fields, depth < field.2.height) {most : Nat} (hmost : fields.length < most) {codec : Codec}
    (hidle : codec.Idle) (hformat : codec.format = format) (hlimits : codec.limits = limits) :
    Breaks codec (foldFieldHeads (fun _ header => skip depth header.tag) most ())
      (format.fields codec.lastField fields) .depthLimit := by
  induction fields generalizing codec most with
  | nil =>
    obtain ⟨field, hm, -⟩ := hdeep
    cases hm
  | cons field rest ih =>
    obtain ⟨most, rfl⟩ := Nat.exists_eq_add_one_of_ne_zero (Nat.ne_of_gt (Nat.zero_lt_of_lt hmost))
    obtain ⟨hfirst, hothers⟩ := List.forall_mem_cons.mp hlegible
    obtain ⟨hbreak, hbreaks'⟩ := List.forall_mem_cons.mp hbreaks
    have hstop : field.2.tag ≠ .stop := by cases field.2 <;> simp [Value.tag]
    have hidle' := hidle.atField field.1
    have hformat' : (codec.atField field.1).format = format := by rw [Codec.format_atField, hformat]
    have hlimits' : (codec.atField field.1).limits = limits := by rw [Codec.limits_atField, hlimits]
    have hhead := reads_fieldBegin hidle field.1 field.2
    rw [hformat] at hhead
    rw [foldFieldHeads, Format.fields]
    refine Breaks.behind hhead ?_
    rw [if_neg hstop]
    by_cases hthis : depth < field.2.height
    · have hvalue := hbreak hthis _ hidle' hformat' hlimits'
      rw [← hformat'] at hvalue ⊢
      exact (breaks_skip_inField hvalue hthis).first
    · have hvalue := reads_skip_inField hidle' (by rw [hformat', hlimits']; exact hfirst) (Nat.le_of_not_lt hthis)
      rw [hformat'] at hvalue
      refine Breaks.behind hvalue ?_
      have hrest : ∃ other ∈ rest, depth < other.2.height := by
        obtain ⟨other, hm, hother⟩ := hdeep
        rcases List.mem_cons.mp hm with rfl | hm
        · exact absurd hother hthis
        · exact ⟨other, hm, hother⟩
      have htail := ih hothers hbreaks' hrest (Nat.lt_of_succ_lt_succ hmost) hidle' hformat' hlimits'
      rw [← hformat, Codec.fields_atField] at htail
      rw [← hformat]
      exact htail

/-- A struct is skipped up to the first field that is too deep. -/
theorem breaks_struct {codec : Codec} (hidle : codec.Idle) {depth : Nat} {fields : List (Int16 × Value)}
    (hlegible : ∀ field ∈ fields, field.2.Legible codec.format codec.limits)
    (hbreaks : ∀ field ∈ fields, depth < field.2.height → ∀ codec' : Codec, codec'.Idle →
      codec'.format = codec.format → codec'.limits = codec.limits →
      Breaks codec' (skip depth field.2.tag) (codec.format.value field.2) .depthLimit)
    (hdeep : ∃ field ∈ fields, depth < field.2.height) :
    Breaks codec (skip (depth + 1) .struct) (codec.format.value (.struct fields)) .depthLimit := by
  refine Breaks.behind (reads_structBegin codec) (Breaks.sized (fun size => do
    foldFieldHeads (fun _ header => skip depth header.tag) (size + 1) ()
    readStructEnd
    return ()) fun size hsize => ?_)
  have hmost : fields.length < size + 1 := Nat.lt_succ_of_lt (Nat.lt_of_lt_of_le (length_lt_fields _ _ _) hsize)
  have hheads := breaks_fieldHeads hlegible hbreaks hdeep hmost hidle.inStruct codec.format_inStruct
    codec.limits_inStruct
  rw [Codec.lastField_inStruct] at hheads
  exact hheads.early

/-- A list or a set is skipped up to the first item that is too deep. -/
theorem breaks_listed {codec : Codec} {depth : Nat} {elem : Tag} {items : List Value}
    (hsize : items.length ≤ Endpoint.maxSize) (hlimit : Endpoint.Within codec.limits.container items.length)
    (helem : codec.format = .binary ∨ elem ≠ .void) (htag : ∀ item ∈ items, item.tag = elem)
    (heach : ∀ item ∈ items, Reads codec (skip depth item.tag) (codec.format.value item) () codec ∨
      Breaks codec (skip depth item.tag) (codec.format.value item) .depthLimit)
    (hsome : ∃ item ∈ items, Breaks codec (skip depth item.tag) (codec.format.value item) .depthLimit) :
    Breaks codec (do
        let header ← readListBegin
        times (skip depth header.elem) header.size)
      (codec.format.listHead ⟨elem, items.length⟩ ++ codec.format.items items) .depthLimit := by
  have hhead : Reads codec readListBegin (codec.format.listHead ⟨elem, items.length⟩) ⟨elem, items.length⟩ codec :=
    reads_listBegin codec hsize hlimit helem
  rw [Format.items_eq_flatMap]
  refine Breaks.behind hhead (Breaks.times (fun item hm => ?_) ?_)
  · rw [← htag item hm]
    exact heach item hm
  · obtain ⟨item, hm, hbreaks⟩ := hsome
    rw [htag item hm] at hbreaks
    exact ⟨item, hm, hbreaks⟩

/-- A map is skipped up to the first key or content that is too deep. -/
theorem breaks_mapped {codec : Codec} {depth : Nat} {key content : Tag} {items : List (Value × Value)}
    (hsize : items.length ≤ Endpoint.maxSize) (hlimit : Endpoint.Within codec.limits.container items.length)
    (hshapes : codec.format = .binary ∨ items = [] ∨ key ≠ .void ∧ content ≠ .void)
    (htags : ∀ entry ∈ items, entry.1.tag = key ∧ entry.2.tag = content)
    (heach : ∀ entry ∈ items, ∀ part ∈ [entry.1, entry.2],
      Reads codec (skip depth part.tag) (codec.format.value part) () codec ∨
        Breaks codec (skip depth part.tag) (codec.format.value part) .depthLimit)
    (hsome : ∃ entry ∈ items, ∃ part ∈ [entry.1, entry.2],
      Breaks codec (skip depth part.tag) (codec.format.value part) .depthLimit) :
    Breaks codec (skip (depth + 1) .map) (codec.format.value (.map key content items)) .depthLimit := by
  obtain ⟨deep, hmdeep, part, hmpart, hbreaks⟩ := hsome
  have hne : items ≠ [] := List.ne_nil_of_mem hmdeep
  have hhead : Reads codec readMapBegin (codec.format.mapHead ⟨key, content, items.length⟩) _ codec :=
    reads_mapBegin codec hsize hlimit (hshapes.imp_right fun hshapes =>
      ⟨mt List.length_eq_zero_iff.mp hne, hshapes.resolve_left hne⟩)
  rw [Format.value, Format.entries_eq_flatMap]
  refine Breaks.behind hhead (Breaks.times (fun entry hm => ?_) ⟨deep, hmdeep, ?_⟩)
  · obtain ⟨hkey, hcontent⟩ := htags entry hm
    rw [← hkey, ← hcontent]
    have hfirst := heach entry hm entry.1 (by simp)
    rcases heach entry hm entry.2 (by simp) with hreads | hbreaks
    · exact hfirst.imp (fun h => h.bind hreads) fun h => h.first
    · exact .inr (Breaks.after hfirst hbreaks)
  · obtain ⟨hkey, hcontent⟩ := htags deep hmdeep
    rw [← hkey, ← hcontent]
    simp only [List.mem_cons, List.not_mem_nil, or_false] at hmpart
    rcases hmpart with rfl | rfl
    · exact hbreaks.first
    · exact Breaks.after (heach deep hmdeep deep.1 (by simp)) hbreaks

/-- A value deeper than allowed breaks the run at its first part that is too deep. -/
theorem breaks_skip (value : Value) : ∀ {depth : Nat} {codec : Codec}, codec.Idle →
    value.Legible codec.format codec.limits → depth < value.height →
    Breaks codec (skip depth value.tag) (codec.format.value value) .depthLimit := by
  induction value using Value.parts_induction with
  | step value ih =>
    intro depth codec hidle hlegible hdeep
    cases depth with
    | zero => exact breaks_skip_zero codec value.tag _
    | succ depth =>
      have hbreaks (part : Value) (hm : part ∈ value.parts) (hpart : depth < part.height) :
          Breaks codec (skip depth part.tag) (codec.format.value part) .depthLimit :=
        ih part hm hidle (hlegible.part hm) hpart
      -- Each part is skipped or breaks the run, as deep as it is.
      have heach (part : Value) (hm : part ∈ value.parts) :
          Reads codec (skip depth part.tag) (codec.format.value part) () codec ∨
            Breaks codec (skip depth part.tag) (codec.format.value part) .depthLimit :=
        (Nat.lt_or_ge depth part.height).symm.imp (reads_skip hidle (hlegible.part hm)) (hbreaks part hm)
      have hwell := hlegible.1
      obtain ⟨haccepts, hadmits⟩ := hlegible.2.here
      cases value with
      | struct fields =>
        rw [Value.height] at hdeep
        have hfield (field : Int16 × Value) (hm : field ∈ fields) : field.2 ∈ (Value.struct fields).parts :=
          List.mem_map_of_mem hm
        refine breaks_struct hidle (fun field hm => hlegible.part (hfield field hm)) ?_
          (Value.lt_fieldsHeight (Nat.lt_of_succ_lt_succ hdeep))
        intro field hm hpart codec' hidle' hformat hlimits
        rw [← hformat]
        refine ih field.2 (hfield field hm) hidle' ?_ hpart
        rw [hformat, hlimits]
        exact hlegible.part (hfield field hm)
      | map key content items =>
        rw [Value.WellTyped] at hwell
        rw [Value.height] at hdeep
        have hpart (entry : Value × Value) (hm : entry ∈ items) (part : Value) (hp : part ∈ [entry.1, entry.2]) :
            part ∈ (Value.map key content items).parts := List.mem_flatMap.mpr ⟨entry, hm, hp⟩
        refine breaks_mapped haccepts.1 hadmits haccepts.2 (fun entry hm => ?_)
          (fun entry hm part hp => heach part (hpart entry hm part hp)) ?_
        · obtain ⟨hkey, hcontent, -⟩ := Value.wellTyped_entry hwell.2 entry hm
          exact ⟨hkey, hcontent⟩
        · obtain ⟨entry, hm, part, hp, hdeeper⟩ := Value.lt_entriesHeight (Nat.lt_of_succ_lt_succ hdeep)
          exact ⟨entry, hm, part, hp, hbreaks part (hpart entry hm part hp) hdeeper⟩
      | set elem items =>
        rw [Value.WellTyped] at hwell
        rw [Value.height] at hdeep
        obtain ⟨item, hm, hitem⟩ := Value.lt_itemsHeight (Nat.lt_of_succ_lt_succ hdeep)
        rw [Format.value]
        exact breaks_listed haccepts.1 hadmits haccepts.2 (fun item hm => (Value.wellTyped_item hwell.2 item hm).1)
          heach ⟨item, hm, hbreaks item hm hitem⟩
      | list elem items =>
        rw [Value.WellTyped] at hwell
        rw [Value.height] at hdeep
        obtain ⟨item, hm, hitem⟩ := Value.lt_itemsHeight (Nat.lt_of_succ_lt_succ hdeep)
        rw [Format.value]
        exact breaks_listed haccepts.1 hadmits haccepts.2 (fun item hm => (Value.wellTyped_item hwell.2 item hm).1)
          heach ⟨item, hm, hbreaks item hm hitem⟩
      | _ => simp [Value.height] at hdeep

/-- What was written of a value is skipped exactly if as many levels of nesting as it has are allowed. Then nothing
behind it is touched and the codec is as it was, and otherwise the depth is what fails. -/
theorem skip_takes_one_value {value : Value} (hwell : value.WellTyped) {writer writer' : Codec} (hwriter : writer.Idle)
    {blank written : Channel} (hwrite : value.write ⟨writer, blank⟩ = .ok () ⟨writer', written⟩) {bytes : Bytes}
    (hbytes : written.pending = blank.pending ++ bytes) {codec : Codec} (hidle : codec.Idle)
    (hformat : codec.format = writer.format) (hadmits : value.Throughout codec.limits.Admits)
    {channel base : Channel} {rest later : Bytes} (hholds : channel.Holds base (bytes ++ rest) later) (depth : Nat) :
    ((∃ after, skip depth value.tag ⟨codec, channel⟩ = .ok () after) ↔ value.height ≤ depth) ∧
      (∀ after, skip depth value.tag ⟨codec, channel⟩ = .ok () after →
        after.codec = codec ∧ after.channel.Holds base rest later) ∧
      (depth < value.height → ∃ after, skip depth value.tag ⟨codec, channel⟩ = .error .depthLimit after) := by
  obtain ⟨haccepts, -, hafter⟩ := (Value.writes_value value hwriter blank).eq_of_ok hwrite
  have hlayout : bytes = codec.format.value value := by
    have hpending : written.pending = blank.pending ++ writer.format.value value := by
      rw [← show _ = written from congrArg Endpoint.channel hafter.symm]
      rfl
    rw [hformat]
    exact List.append_cancel_left (hbytes.symm.trans hpending)
  rw [← hformat] at haccepts
  have hlegible : value.Legible codec.format codec.limits := ⟨hwell, haccepts.and hadmits⟩
  rw [hlayout] at hholds
  by_cases hdepth : value.height ≤ depth
  · obtain ⟨after, hskip, hrest⟩ := reads_skip hidle hlegible hdepth hholds
    refine ⟨⟨fun _ => hdepth, fun _ => ⟨_, hskip⟩⟩, fun other hother => ?_, fun hdeep => ?_⟩
    · rw [hskip] at hother
      cases hother
      exact ⟨rfl, hrest⟩
    · exact absurd hdepth (Nat.not_le_of_lt hdeep)
  · obtain ⟨after, hskip⟩ := breaks_skip value hidle hlegible (Nat.lt_of_not_le hdepth) hholds
    refine ⟨⟨?_, fun h => absurd h hdepth⟩, fun other hother => ?_, fun _ => ⟨after, hskip⟩⟩
    · rintro ⟨other, hother⟩
      rw [hskip] at hother
      cases hother
    · rw [hskip] at hother
      cases hother

/-- A struct of three levels, delivered octet by octet: three levels suffice, two do not. -/
theorem skip_takes_nested_struct : ∃ channel : Channel,
    channel = { transport := .raw { unread := [0x11, 0x09, 40, 0x25, 2, 3, 0, 0x77], chunk := some 1 } } ∧
      (∃ after, skip 3 .struct ⟨.compact {}, channel⟩ = .ok () after ∧ after.codec = .compact {} ∧
        after.channel.Holds channel [0x77] []) ∧
      ∃ after, skip 2 .struct ⟨.compact {}, channel⟩ = .error .depthLimit after := by
  have hparts {p : Value → Prop} (hstruct : ∀ fields, p (.struct fields)) (hbool : ∀ value, p (.bool value))
      (hlist : p (.list .i32 [.i32 1, .i32 (-2)])) (hi32 : ∀ value, p (.i32 value)) :
      (Value.struct [(1, .bool true), (20, .list .i32 [.i32 1, .i32 (-2)])]).Throughout p := by
    refine Value.throughout_struct.mpr ⟨hstruct _, ?_⟩
    simpa using ⟨Value.throughout_of_parts (hbool true) rfl, Value.throughout_list.mpr ⟨hlist, by
      simpa using ⟨Value.throughout_of_parts (hi32 1) rfl, Value.throughout_of_parts (hi32 (-2)) rfl⟩⟩⟩
  have hidle : (Codec.compact {}).Idle := ⟨rfl, rfl⟩
  have hwrite := ((Value.writes_value (.struct [(1, .bool true), (20, .list .i32 [.i32 1, .i32 (-2)])]) hidle)
    { transport := .raw {} }).1 (hparts (fun _ => trivial) (fun _ => trivial) ⟨by decide, .inr (by decide)⟩
      fun _ => trivial)
  have hholds : Channel.Holds
      { transport := .raw { unread := [0x11, 0x09, 40, 0x25, 2, 3, 0, 0x77], chunk := some 1 } }
      { transport := .raw { unread := [0x11, 0x09, 40, 0x25, 2, 3, 0, 0x77], chunk := some 1 } }
      (Format.value (.compact .littleEndian) (.struct [(1, .bool true), (20, .list .i32 [.i32 1, .i32 (-2)])]) ++
        [0x77]) [] := by
    refine .of_settled ?_
    decide +kernel
  have hskip := skip_takes_one_value
    (by simp [Value.WellTyped, Value.FieldsWellTyped, Value.ItemsWellTyped, Value.tag, Endpoint.maxSize])
    hidle hwrite rfl hidle rfl
    (hparts (fun _ => trivial) (fun _ => trivial) (.inl rfl) fun _ => trivial) hholds
  refine ⟨_, rfl, ?_, ?_⟩
  · obtain ⟨hiff, hafter, -⟩ := hskip 3
    obtain ⟨after, hok⟩ := hiff.mpr (by decide)
    exact ⟨after, hok, hafter after hok⟩
  · exact (hskip 2).2.2 (by decide)

end WireM
end RpcWire
