import RpcWire.Value

/-! The values directly inside a value, induction over them, and properties that hold all the way down. -/
namespace RpcWire.Value

def parts : Value → List Value
  | .struct fields => fields.map (·.2)
  | .map _ _ items => items.flatMap fun entry => [entry.1, entry.2]
  | .set _ items => items
  | .list _ items => items
  | _ => []

private theorem sizeOf_part {value part : Value} (h : part ∈ value.parts) : sizeOf part < sizeOf value := by
  cases value with
  | struct fields =>
    obtain ⟨⟨id, inner⟩, hm, rfl⟩ := List.mem_map.mp h
    have := List.sizeOf_lt_of_mem hm
    simp only [Prod.mk.sizeOf_spec, struct.sizeOf_spec] at *
    omega
  | map key value items =>
    obtain ⟨⟨first, second⟩, hm, hp⟩ := List.mem_flatMap.mp h
    have := List.sizeOf_lt_of_mem hm
    simp only [List.mem_cons, List.not_mem_nil, or_false] at hp
    rcases hp with rfl | rfl <;> simp only [Prod.mk.sizeOf_spec, map.sizeOf_spec] at * <;> omega
  | set elem items =>
    have := List.sizeOf_lt_of_mem (show part ∈ items from h)
    simp only [set.sizeOf_spec]
    omega
  | list elem items =>
    have := List.sizeOf_lt_of_mem (show part ∈ items from h)
    simp only [list.sizeOf_spec]
    omega
  | _ => simp [parts] at h

/-- A property that holds of a value whenever it holds of all its parts holds of every value. -/
theorem parts_induction {motive : Value → Prop}
    (step : ∀ value, (∀ part ∈ value.parts, motive part) → motive value) (value : Value) : motive value :=
  step value fun part _ => parts_induction step part
termination_by value
decreasing_by exact sizeOf_part ‹_›

/-- A property of a value, of its parts, of theirs, and so on. -/
inductive Throughout (p : Value → Prop) : Value → Prop where
  | intro {value : Value} (here : p value) (below : ∀ part ∈ value.parts, Throughout p part) :
    Throughout p value

theorem Throughout.here {p : Value → Prop} {value : Value} : Throughout p value → p value
  | .intro here _ => here

theorem Throughout.part {p : Value → Prop} {value part : Value} (h : Throughout p value)
    (hm : part ∈ value.parts) : Throughout p part :=
  match h with
  | .intro _ below => below part hm

theorem throughout_iff {p : Value → Prop} {value : Value} :
    value.Throughout p ↔ p value ∧ ∀ part ∈ value.parts, part.Throughout p :=
  ⟨fun h => ⟨h.here, fun _ => h.part⟩, fun ⟨here, below⟩ => .intro here below⟩

theorem throughout_struct {p : Value → Prop} {fields : List (Int16 × Value)} :
    (struct fields).Throughout p ↔ p (struct fields) ∧ ∀ field ∈ fields, field.2.Throughout p := by
  rw [throughout_iff, parts, List.forall_mem_map]

theorem throughout_list {p : Value → Prop} {elem : Tag} {items : List Value} :
    (list elem items).Throughout p ↔ p (list elem items) ∧ ∀ item ∈ items, item.Throughout p :=
  throughout_iff

/-- What holds of a value without parts holds all the way down. -/
theorem throughout_of_parts {p : Value → Prop} {value : Value} (h : p value) (hparts : value.parts = []) :
    value.Throughout p := by
  refine .intro h ?_
  rw [hparts]
  exact nofun

theorem Throughout.and {p q : Value → Prop} {value : Value} (hp : value.Throughout p) (hq : value.Throughout q) :
    value.Throughout fun part => p part ∧ q part := by
  induction hp with
  | intro here _ ih => exact .intro ⟨here, hq.here⟩ fun part hm => ih part hm (hq.part hm)

private theorem wellTyped_field {fields : List (Int16 × Value)} (h : FieldsWellTyped fields) :
    ∀ field ∈ fields, WellTyped field.2 := by
  induction fields with
  | nil => simp
  | cons field rest ih =>
    rw [FieldsWellTyped] at h
    simpa using ⟨h.1, fun id inner => ih h.2 (id, inner)⟩

theorem wellTyped_entry {key value : Tag} {items : List (Value × Value)} (h : EntriesWellTyped key value items) :
    ∀ entry ∈ items, entry.1.tag = key ∧ entry.2.tag = value ∧ WellTyped entry.1 ∧ WellTyped entry.2 := by
  induction items with
  | nil => simp
  | cons entry rest ih =>
    rw [EntriesWellTyped] at h
    obtain ⟨hk, hv, hkw, hvw, hr⟩ := h
    exact List.forall_mem_cons.mpr ⟨⟨hk, hv, hkw, hvw⟩, ih hr⟩

theorem wellTyped_item {elem : Tag} {items : List Value} (h : ItemsWellTyped elem items) :
    ∀ item ∈ items, item.tag = elem ∧ WellTyped item := by
  induction items with
  | nil => simp
  | cons item rest ih =>
    rw [ItemsWellTyped] at h
    exact List.forall_mem_cons.mpr ⟨⟨h.1, h.2.1⟩, ih h.2.2⟩

theorem wellTyped_part {value part : Value} (h : value.WellTyped) (hm : part ∈ value.parts) : part.WellTyped := by
  cases value with
  | struct fields =>
    obtain ⟨field, hf, rfl⟩ := List.mem_map.mp hm
    exact wellTyped_field h field hf
  | map key content items =>
    rw [WellTyped] at h
    obtain ⟨entry, he, hp⟩ := List.mem_flatMap.mp hm
    obtain ⟨-, -, hkey, hvalue⟩ := wellTyped_entry h.2 entry he
    simp only [List.mem_cons, List.not_mem_nil, or_false] at hp
    rcases hp with rfl | rfl
    · exact hkey
    · exact hvalue
  | set elem items =>
    rw [WellTyped] at h
    exact (wellTyped_item h.2 part hm).2
  | list elem items =>
    rw [WellTyped] at h
    exact (wellTyped_item h.2 part hm).2
  | _ => simp [parts] at hm

theorem height_field {fields : List (Int16 × Value)} {field : Int16 × Value} (h : field ∈ fields) :
    height field.2 ≤ fieldsHeight fields := by
  induction fields with
  | nil => cases h
  | cons first rest ih =>
    rw [fieldsHeight]
    rcases List.mem_cons.mp h with rfl | h
    · exact Nat.le_max_left _ _
    · exact Nat.le_trans (ih h) (Nat.le_max_right _ _)

theorem height_entry {items : List (Value × Value)} {entry : Value × Value} (h : entry ∈ items) :
    height entry.1 ≤ entriesHeight items ∧ height entry.2 ≤ entriesHeight items := by
  induction items with
  | nil => cases h
  | cons first rest ih =>
    rw [entriesHeight]
    rcases List.mem_cons.mp h with rfl | h
    · omega
    · have := ih h
      omega

theorem height_item {items : List Value} {item : Value} (h : item ∈ items) :
    height item ≤ itemsHeight items := by
  induction items with
  | nil => cases h
  | cons first rest ih =>
    rw [itemsHeight]
    rcases List.mem_cons.mp h with rfl | h
    · exact Nat.le_max_left _ _
    · exact Nat.le_trans (ih h) (Nat.le_max_right _ _)

end RpcWire.Value
