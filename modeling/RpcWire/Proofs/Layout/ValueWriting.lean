import RpcWire.Proofs.Layout.CodecState
import RpcWire.Proofs.Layout.CodecWriting

/-! Writing a value adds its layout to what is pending, in either encoding and wherever the value stands. -/
namespace RpcWire

namespace WireM
variable {α : Type} {bytes : Bytes} {result : α} {cond : Prop}

private theorem writes_binary {codec codec' : Binary} {act : Binary.M α} {other : Compact.M α}
    (h : Writes codec act bytes result codec' cond) :
    Writes (.binary codec) (dispatch act other) bytes result (.binary codec') cond := by
  intro channel
  have hpart := (h channel).onPart (fun whole : Endpoint Codec => (⟨codec, whole.channel⟩ : Endpoint Binary))
    (fun _ part => (⟨.binary part.codec, part.channel⟩ : Endpoint Codec)) ⟨.binary codec, channel⟩
  exact ⟨hpart.1, hpart.2⟩

private theorem writes_compact {codec codec' : Compact} {act : Compact.M α} {other : Binary.M α}
    (h : Writes codec act bytes result codec' cond) :
    Writes (.compact codec) (dispatch other act) bytes result (.compact codec') cond := by
  intro channel
  have hpart := (h channel).onPart (fun whole : Endpoint Codec => (⟨codec, whole.channel⟩ : Endpoint Compact))
    (fun _ part => (⟨.compact part.codec, part.channel⟩ : Endpoint Codec)) ⟨.compact codec, channel⟩
  exact ⟨hpart.1, hpart.2⟩

private theorem writes_structBegin (codec : Codec) :
    Writes codec writeStructBegin [] () codec.inStruct True := by
  cases codec with
  | binary codec => exact writes_binary (Writes.pure codec ())
  | compact codec => exact writes_compact codec.writes_structBegin

/-- The end of a struct goes back to the codec at its start, whatever field was the last. -/
theorem writes_structEnd (codec : Codec) (id : Int16) :
    Writes (codec.inStruct.atField id) writeStructEnd [] () codec True := by
  cases codec with
  | binary codec => exact writes_binary (Writes.pure codec ())
  | compact codec => exact writes_compact (Compact.writes_structEnd _ rfl)

private theorem writes_bool {codec : Codec} (h : codec.Idle) (value : Bool) :
    Writes codec (writeBool value) (codec.format.bool value) () codec True := by
  cases codec with
  | binary codec => exact writes_binary (Endpoint.writes_byte codec _)
  | compact codec => exact writes_compact (codec.writes_bool value h.1)

private theorem writes_stop (codec : Codec) : Writes codec writeFieldStop [0] () codec True := by
  cases codec with
  | binary codec => exact writes_binary (Endpoint.writes_byte codec _)
  | compact codec => exact writes_compact (Endpoint.writes_byte codec _)

/-- An action that leaves either codec as it is. -/
theorem writes_dispatch (codec : Codec) (layout : Format → Bytes) {binary : Binary.M Unit} {compact : Compact.M Unit}
    (hb : ∀ codec : Binary, Writes codec binary (layout .binary) () codec cond)
    (hc : ∀ codec : Compact, Writes codec compact (layout (.compact codec.version)) () codec cond) :
    Writes codec (dispatch binary compact) (layout codec.format) () codec cond := by
  cases codec with
  | binary codec => exact writes_binary (hb codec)
  | compact codec => exact writes_compact (hc codec)

private theorem writes_run (codec : Codec) (bytes : Bytes) :
    Writes codec (writeBytes bytes) (codec.format.run bytes) () codec (bytes.length ≤ Endpoint.maxSize) :=
  writes_dispatch codec (·.run bytes) (fun codec => codec.writes_run bytes) fun codec => codec.writes_run bytes

private theorem writes_i32 (codec : Codec) (value : Int32) :
    Writes codec (writeI32 value) (codec.format.i32 value) () codec True :=
  writes_dispatch codec (·.i32 value) (fun codec => Endpoint.writes_bytes codec _) fun codec =>
    Endpoint.writes_bytes codec _

private theorem writes_double (codec : Codec) (bits : UInt64) :
    Writes codec (writeDouble bits) (codec.format.double bits) () codec True :=
  writes_dispatch codec (·.double bits) (fun codec => Endpoint.writes_bytes codec _) fun codec =>
    codec.writes_double bits

private theorem writes_listBegin (codec : Codec) (header : ListHeader) :
    Writes codec (writeListBegin header) (codec.format.listHead header) () codec
      (header.size ≤ Endpoint.maxSize ∧ (codec.format = .binary ∨ header.elem ≠ .void)) := by
  cases codec with
  | binary codec => exact (writes_binary (codec.writes_listBegin header)).congr rfl (by simp [Codec.format])
  | compact codec =>
    apply (writes_compact (codec.writes_listBegin header)).congr rfl
    simp [Codec.format, and_comm]

private theorem writes_mapBegin (codec : Codec) (header : MapHeader) :
    Writes codec (writeMapBegin header) (codec.format.mapHead header) () codec
      (header.size ≤ Endpoint.maxSize ∧
        (codec.format = .binary ∨ header.size = 0 ∨ header.key ≠ .void ∧ header.value ≠ .void)) := by
  cases codec with
  | binary codec => exact (writes_binary (codec.writes_mapBegin header)).congr rfl (by simp [Codec.format])
  | compact codec =>
    apply (writes_compact (codec.writes_mapBegin header)).congr rfl
    simp only [Codec.format, reduceCtorEq, false_or]
    constructor
    · rintro (h | ⟨hk, hv, hs⟩)
      · exact ⟨h ▸ Nat.zero_le _, Or.inl h⟩
      · exact ⟨hs, Or.inr ⟨hk, hv⟩⟩
    · rintro ⟨hs, h | h⟩
      · exact Or.inl h
      · exact Or.inr ⟨h.1, h.2, hs⟩

theorem writes_messageBegin (codec : Codec) (header : MessageHeader) :
    Writes codec (writeMessageBegin header) (codec.format.message header) () codec
      ((Utf8.encode header.name).length ≤ Endpoint.maxSize) :=
  writes_dispatch codec (·.message header) (fun codec => codec.writes_messageBegin header) fun codec =>
    codec.writes_messageBegin header

end WireM

namespace Value
open WireM

/-- A field is written as its head and its value; a truth value may be the head itself. -/
theorem writes_field {codec : Codec} (hidle : codec.Idle) (id : Int16) {value : Value} {cond : Prop}
    (h : ∀ codec' : Codec, codec'.Idle → codec'.format = codec.format →
      Writes codec' (write value) (codec.format.value value) () codec' cond) :
    Writes codec (do writeFieldBegin ⟨value.tag, id⟩; write value)
      (Format.fieldHead codec.lastField id codec.format value ++
        if codec.format.inHead value then [] else codec.format.value value) () (codec.atField id) cond := by
  cases codec with
  | binary codec =>
    exact (writes_binary (codec.writes_fieldBegin value.tag id)).then_always (h (.binary codec) trivial rfl)
  | compact codec =>
    by_cases hb : value.tag = .bool
    · obtain ⟨content, rfl⟩ := tag_eq_bool hb
      have hcond : cond := (writes_bool hidle content).cond_of_always (h (.compact codec) hidle rfl)
      have hbegin : Writes (.compact codec) (writeFieldBegin ⟨.bool, id⟩) [] ()
          (.compact { codec with pendingWrite := some id }) True :=
        writes_compact (codec.writes_fieldBegin_bool id)
      have hvalue : Writes (.compact { codec with pendingWrite := some id }) (writeBool content) _ ()
          (.compact { codec with lastField := id, pendingWrite := none }) True :=
        writes_compact (Compact.writes_pendingBool { codec with pendingWrite := some id } content rfl)
      have hidle' : { codec with lastField := id, pendingWrite := none } = { codec with lastField := id } := by
        rw [← hidle.1]
      rw [hidle'] at hvalue
      exact (hbegin.then_always hvalue).congr (List.append_nil _).symm (by simp [hcond])
    · have hbegin : Writes (.compact codec) (writeFieldBegin ⟨value.tag, id⟩) _ ()
          (.compact { codec with lastField := id }) (value.tag ≠ .void) :=
        writes_compact (codec.writes_fieldBegin hb id)
      refine (hbegin.bind (h (.compact { codec with lastField := id }) hidle rfl)).congr ?_ ?_
      · simp only [Codec.format, Codec.lastField, fieldHead_of_not_bool hb, inHead_of_not_bool _ hb,
          Bool.false_eq_true, if_false]
      · simp only [ne_eq, tag_ne_void, not_false_eq_true, true_and]

private theorem writes_items {codec : Codec} {cond : Value → Prop} {items : List Value}
    (h : ∀ item ∈ items, Writes codec (write item) (codec.format.value item) () codec (cond item)) :
    Writes codec (writeItems items) (codec.format.items items) () codec (∀ item ∈ items, cond item) := by
  induction items with
  | nil => exact (Writes.pure codec ()).congr rfl (by simp)
  | cons item rest ih =>
    obtain ⟨hitem, hrest⟩ := List.forall_mem_cons.mp h
    exact (hitem.bind (ih hrest)).congr rfl List.forall_mem_cons.symm

private theorem writes_entries {codec : Codec} {cond : Value → Prop} {items : List (Value × Value)}
    (h : ∀ entry ∈ items, ∀ part ∈ [entry.1, entry.2],
      Writes codec (write part) (codec.format.value part) () codec (cond part)) :
    Writes codec (writeEntries items) (codec.format.entries items) () codec
      (∀ entry ∈ items, ∀ part ∈ [entry.1, entry.2], cond part) := by
  induction items with
  | nil => exact (Writes.pure codec ()).congr rfl (by simp)
  | cons entry rest ih =>
    obtain ⟨hentry, hrest⟩ := List.forall_mem_cons.mp h
    have hkey := hentry entry.1 (by simp)
    have hvalue := hentry entry.2 (by simp)
    apply (hkey.bind (hvalue.bind (ih hrest))).congr rfl
    simp only [List.forall_mem_cons, List.not_mem_nil, false_imp_iff, implies_true, and_true, and_assoc]

/-- The fields of a struct are written with the octet that ends them. -/
theorem writes_fields {codec : Codec} (hidle : codec.Idle) {cond : Value → Prop} {fields : List (Int16 × Value)}
    (h : ∀ field ∈ fields, ∀ codec' : Codec, codec'.Idle → codec'.format = codec.format →
      Writes codec' (write field.2) (codec.format.value field.2) () codec' (cond field.2)) :
    ∃ last, Writes codec (do writeFields fields; writeFieldStop)
      (codec.format.fields codec.lastField fields) () (codec.atField last) (∀ field ∈ fields, cond field.2) := by
  induction fields generalizing codec with
  | nil =>
    refine ⟨codec.lastField, ?_⟩
    have hsame : codec.atField codec.lastField = codec := by cases codec <;> rfl
    rw [hsame]
    exact (writes_stop codec).congr rfl (by simp)
  | cons field rest ih =>
    obtain ⟨hfield, hrest⟩ := List.forall_mem_cons.mp h
    obtain ⟨last, htail⟩ := ih (hidle.atField field.1) (by simpa using hrest)
    refine ⟨last, ?_⟩
    have hat : (codec.atField field.1).atField last = codec.atField last := by cases codec <;> rfl
    rw [Codec.format_atField, Codec.fields_atField, hat] at htail
    have hall := (writes_field hidle field.1 hfield).seq htail
    rw [bind_assoc] at hall
    simp only [writeFields, bind_assoc]
    refine hall.congr ?_ ?_
    · rw [Format.fields, List.append_assoc]
    · simp only [List.forall_mem_cons]

/-- A value is written as its layout, and the codec is then as it was. -/
theorem writes_value (value : Value) : ∀ {codec : Codec}, codec.Idle →
    Writes codec (write value) (codec.format.value value) () codec (value.Throughout codec.format.Accepts) := by
  induction value using parts_induction with
  | step value ih =>
    intro codec hidle
    rw [throughout_iff]
    cases value with
    | struct fields =>
      have hfields : ∀ field ∈ fields, ∀ codec' : Codec, codec'.Idle → codec'.format = codec.inStruct.format →
          Writes codec' (write field.2) (codec.inStruct.format.value field.2) () codec'
            (field.2.Throughout codec.format.Accepts) := by
        intro field hm codec' hidle' hf
        rw [Codec.format_inStruct] at hf ⊢
        rw [← hf]
        exact ih _ (List.mem_map_of_mem hm) hidle'
      obtain ⟨last, hw⟩ := writes_fields hidle.inStruct hfields
      have hall := (writes_structBegin codec).seq (hw.seq (writes_structEnd codec last))
      simp only [bind_assoc] at hall
      rw [write]
      refine hall.congr ?_ ?_
      · rw [Codec.format_inStruct, List.nil_append, List.append_nil, Format.value, Codec.lastField_inStruct]
      · simp only [Format.Accepts, parts, List.mem_map, forall_exists_index, and_imp, forall_apply_eq_imp_iff₂,
          true_and, and_true]
    | map key content items =>
      have hw := writes_entries fun entry hm part hp => ih part (List.mem_flatMap.mpr ⟨entry, hm, hp⟩) hidle
      rw [write]
      refine ((writes_mapBegin codec ⟨key, content, items.length⟩).seq hw).congr (by rw [Format.value]) ?_
      simp only [Format.Accepts, parts, List.length_eq_zero_iff, List.mem_flatMap, forall_exists_index, and_imp]
      exact and_congr_right fun _ => ⟨fun h part entry hm hp => h entry hm part hp,
        fun h entry hm part hp => h part entry hm hp⟩
    | set elem items =>
      have hw : Writes codec (writeItems items) _ () codec _ := writes_items fun item hm => ih item hm hidle
      rw [write]
      exact ((writes_listBegin codec ⟨elem, items.length⟩).seq hw).congr (by rw [Format.value]) Iff.rfl
    | list elem items =>
      have hw : Writes codec (writeItems items) _ () codec _ := writes_items fun item hm => ih item hm hidle
      rw [write]
      exact ((writes_listBegin codec ⟨elem, items.length⟩).seq hw).congr (by rw [Format.value]) Iff.rfl
    | binary bytes =>
      rw [write, Format.value]
      exact (writes_run codec bytes).congr rfl (by simp [Format.Accepts, parts])
    | bool content =>
      rw [write, Format.value]
      exact (writes_bool hidle content).congr rfl (by simp [Format.Accepts, parts])
    | double bits =>
      rw [write, Format.value]
      exact (writes_double codec bits).congr rfl (by simp [Format.Accepts, parts])
    | byte content =>
      rw [write, Format.value]
      exact (writes_dispatch codec (fun _ => [content.toUInt8]) (fun codec => Endpoint.writes_byte codec _)
        fun codec => Endpoint.writes_byte codec _).congr rfl (by simp [Format.Accepts, parts])
    | float bits =>
      rw [write, Format.value]
      exact (writes_dispatch codec (fun _ => Bytes.bigEndian 4 bits.toNat)
        (fun codec => Endpoint.writes_bytes codec _) fun codec => Endpoint.writes_bytes codec _).congr rfl
          (by simp [Format.Accepts, parts])
    | i16 content =>
      rw [write, Format.value]
      exact (writes_dispatch codec (·.i16 content) (fun codec => Endpoint.writes_bytes codec _) fun codec =>
        Endpoint.writes_bytes codec _).congr rfl (by simp [Format.Accepts, parts])
    | i32 content =>
      rw [write, Format.value]
      exact (writes_i32 codec content).congr rfl (by simp [Format.Accepts, parts])
    | i64 content =>
      rw [write, Format.value]
      exact (writes_dispatch codec (·.i64 content) (fun codec => Endpoint.writes_bytes codec _) fun codec =>
        Endpoint.writes_bytes codec _).congr rfl (by simp [Format.Accepts, parts])

end Value
end RpcWire
