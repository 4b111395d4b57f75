import RpcWire.Proofs.Drawing
import RpcWire.Proofs.Layout.Skipping

/-! Reading a value of octets that nobody laid out for it takes a front of them, and comes to the same wherever that
front stands: it matters neither what the codec remembers of the structs around the value nor how much comes behind. -/
namespace RpcWire

namespace Codec

inductive Kin : Codec → Codec → Prop where
  | binary (codec : Binary) : Kin (.binary codec) (.binary codec)
  | compact {codec codec' : Compact} (h : codec.Kin codec') : Kin (.compact codec) (.compact codec')

/-- The truth value that came in the head of its field and was not read yet. -/
def pendingRead : Codec → Option Bool
  | .binary _ => none
  | .compact codec => codec.pendingRead

def drained : Codec → Codec
  | .binary codec => .binary codec
  | .compact codec => .compact { codec with pendingRead := none }

theorem Kin.refl (codec : Codec) : codec.Kin codec := by
  cases codec with
  | binary codec => exact .binary codec
  | compact codec => exact .compact ⟨rfl, rfl, rfl⟩

/-- What a codec remembers of the message under way does not matter for a value, but for a truth value awaited. -/
theorem kin_reset {codec : Codec} (h : codec.pendingRead = none) : codec.Kin codec.reset := by
  cases codec with
  | binary codec => exact .binary codec
  | compact codec => exact .compact ⟨rfl, rfl, h⟩

theorem drained_eq {codec : Codec} (h : codec.pendingRead = none) : codec.drained = codec := by
  cases codec with
  | binary codec => rfl
  | compact codec =>
    have hnone : codec.pendingRead = none := h
    rw [drained, ← hnone]

theorem Kin.pendingRead {codec codec' : Codec} (h : codec.Kin codec') : codec.pendingRead = codec'.pendingRead := by
  cases h with
  | binary codec => rfl
  | compact h => exact h.pendingRead

theorem Kin.inStruct {codec codec' : Codec} (h : codec.Kin codec') : codec.inStruct.Kin codec'.inStruct := by
  cases h with
  | binary codec => exact .binary codec
  | compact h => exact .compact ⟨h.version, h.limits, h.pendingRead⟩

theorem Kin.atField {codec codec' : Codec} (h : codec.Kin codec') (id : Int16) :
    (codec.atField id).Kin (codec'.atField id) := by
  cases h with
  | binary codec => exact .binary codec
  | compact h => exact .compact ⟨h.version, h.limits, h.pendingRead⟩

@[simp] theorem pendingRead_inStruct (codec : Codec) : codec.inStruct.pendingRead = codec.pendingRead := by
  cases codec <;> rfl

@[simp] theorem pendingRead_atField (codec : Codec) (id : Int16) :
    (codec.atField id).pendingRead = codec.pendingRead := by
  cases codec <;> rfl

@[simp] theorem atField_atField (codec : Codec) (id id' : Int16) :
    (codec.atField id).atField id' = codec.atField id' := by
  cases codec <;> rfl

theorem atField_lastField (codec : Codec) : codec.atField codec.lastField = codec := by
  cases codec <;> rfl

/-- What the head of a field leaves of two codecs: they are at that field, and may await its truth value. -/
inductive Headed (codec codec' : Codec) (header : FieldHeader) : Codec → Codec → Prop where
  | stop (htag : header.tag = .stop) : Headed codec codec' header codec codec'
  | field {final final' : Codec} (htag : header.tag ≠ .stop) (hkin : final.Kin final')
    (hpending : final.pendingRead = none ∨ header.tag = .bool) (hfinal : final.drained = codec.atField header.id)
    (hfinal' : final'.drained = codec'.atField header.id) : Headed codec codec' header final final'

end Codec

/-- An action of the binary codec. -/
theorem Draws.binary {α : Type} {codec codec' : Binary} {act : Binary.M α} {least : Nat}
    {mid : α → Binary → Binary → Prop} {after : α → Codec → Codec → Prop} (other : Compact.M α)
    (h : Draws codec codec' act least mid)
    (hafter : ∀ value final final', mid value final final' → after value (.binary final) (.binary final')) :
    Draws (.binary codec) (.binary codec') (WireM.dispatch act other) least after := by
  intro channel
  obtain ⟨taken, last, hconsumes, ⟨value, final, final', hact, hleast, hmid, hreads⟩ | ⟨err, final, hact⟩⟩ := h channel
  · refine ⟨taken, last, hconsumes, .inl ⟨value, .binary final, .binary final', ?_, hleast, hafter _ _ _ hmid,
      hreads.binary other⟩⟩
    simp only [WireM.dispatch, onPart, hact]
  · refine ⟨taken, last, hconsumes, .inr ⟨err, .binary final, ?_⟩⟩
    simp only [WireM.dispatch, onPart, hact]

/-- An action of the compact codec. -/
theorem Draws.compact {α : Type} {codec codec' : Compact} {act : Compact.M α} {least : Nat}
    {mid : α → Compact → Compact → Prop} {after : α → Codec → Codec → Prop} (other : Binary.M α)
    (h : Draws codec codec' act least mid)
    (hafter : ∀ value final final', mid value final final' → after value (.compact final) (.compact final')) :
    Draws (.compact codec) (.compact codec') (WireM.dispatch other act) least after := by
  intro channel
  obtain ⟨taken, last, hconsumes, ⟨value, final, final', hact, hleast, hmid, hreads⟩ | ⟨err, final, hact⟩⟩ := h channel
  · refine ⟨taken, last, hconsumes, .inl ⟨value, .compact final, .compact final', ?_, hleast, hafter _ _ _ hmid,
      hreads.compact other⟩⟩
    simp only [WireM.dispatch, onPart, hact]
  · refine ⟨taken, last, hconsumes, .inr ⟨err, .compact final, ?_⟩⟩
    simp only [WireM.dispatch, onPart, hact]

namespace WireM
variable {codec codec' : Codec}

/-- An action that leaves either codec as it is. -/
theorem takes_dispatch {α : Type} {binary : Binary.M α} {compact : Compact.M α} {least : Nat} (h : codec.Kin codec')
    (hb : ∀ codec : Binary, Takes codec codec binary least)
    (hc : ∀ codec codec' : Compact, codec.Kin codec' → Takes codec codec' compact least) :
    Takes codec codec' (dispatch binary compact) least := by
  cases h with
  | binary codec => exact (hb codec).binary compact fun _ _ _ h => ⟨congrArg _ h.1, congrArg _ h.2⟩
  | compact h => exact (hc _ _ h).compact binary fun _ _ _ h => ⟨congrArg _ h.1, congrArg _ h.2⟩

/-- Where no truth value is awaited, one is an octet at least. -/
theorem takes_bool (h : codec.Kin codec') (hpending : codec.pendingRead = none) : Takes codec codec' readBool 1 := by
  cases h with
  | binary codec => exact Binary.takes_bool.binary _ fun _ _ _ h => ⟨congrArg _ h.1, congrArg _ h.2⟩
  | compact h =>
    exact (Compact.takes_bool hpending (h.pendingRead.symm.trans hpending)).compact _
      fun _ _ _ h => ⟨congrArg _ h.1, congrArg _ h.2⟩

/-- A truth value takes an octet or was awaited. -/
theorem draws_bool (h : codec.Kin codec') : Draws codec codec' readBool 0 fun _ final final' =>
    final = codec.drained ∧ final' = codec'.drained := by
  by_cases hpending : codec.pendingRead = none
  · rw [Codec.drained_eq hpending, Codec.drained_eq (h.pendingRead.symm.trans hpending)]
    exact (takes_bool h hpending).free
  · obtain ⟨value, hvalue⟩ := Option.ne_none_iff_exists'.mp hpending
    cases h with
    | binary codec => cases hvalue
    | compact h =>
      exact (Compact.draws_pendingBool hvalue (h.pendingRead.symm.trans hvalue)).compact _
        fun _ _ _ h => ⟨congrArg _ h.1, congrArg _ h.2⟩

theorem draws_structBegin (h : codec.Kin codec') : Draws codec codec' readStructBegin 0 fun _ final final' =>
    final = codec.inStruct ∧ final' = codec'.inStruct := by
  cases h with
  | binary codec => exact (Takes.pure ()).binary _ fun _ _ _ h => ⟨congrArg _ h.1, congrArg _ h.2⟩
  | compact h => exact (Compact.draws_onCodec _).compact _ fun _ _ _ h => ⟨congrArg _ h.1, congrArg _ h.2⟩

theorem draws_fieldBegin (h : codec.Kin codec') (hpending : codec.pendingRead = none)
    (hlast : codec.lastField = codec'.lastField) : Draws codec codec' readFieldBegin 1 (codec.Headed codec') := by
  cases h with
  | binary codec =>
    refine Binary.takes_fieldBegin.binary _ ?_
    rintro header _ _ ⟨rfl, rfl⟩
    by_cases htag : header.tag = .stop
    · exact .stop htag
    · exact .field htag (.binary _) (.inl rfl) rfl rfl
  | @compact codec codec' h =>
    refine (Compact.draws_fieldBegin hlast).compact _ fun header final final' hheaded => ?_
    have hnone : codec.pendingRead = none := hpending
    have hnone' : codec'.pendingRead = none := h.pendingRead.symm.trans hpending
    cases hheaded with
    | stop => exact .stop rfl
    | @field tag id nibble htag =>
      refine .field htag (.compact ⟨h.version, h.limits, ?_⟩) ?_ ?_ ?_
      · simp only [Compact.afterHead, h.pendingRead]
      · by_cases hbool : tag = .bool
        · exact .inr hbool
        · left
          simp only [Codec.pendingRead, Compact.afterHead, hbool, if_false, hnone]
      · simp only [Codec.drained, Codec.atField, Compact.afterHead, ← hnone]
      · simp only [Codec.drained, Codec.atField, Compact.afterHead, ← hnone']

theorem takes_mapBegin (h : codec.Kin codec') : Takes codec codec' readMapBegin 1 :=
  takes_dispatch h (fun _ => Binary.takes_mapBegin) fun _ _ h => Compact.takes_mapBegin h.limits

theorem takes_listBegin (h : codec.Kin codec') : Takes codec codec' readListBegin 1 :=
  takes_dispatch h (fun _ => Binary.takes_listBegin) fun _ _ h => Compact.takes_listBegin h.limits

/-- The value of a field is read wherever its head was: it may be the truth value that is awaited. -/
def DrawsField {β : Type} (act : FieldHeader → WireM β) : Prop :=
  ∀ ⦃codec codec' : Codec⦄ (header : FieldHeader), codec.Kin codec' →
    codec.pendingRead = none ∨ header.tag = .bool →
    Draws codec codec' (act header) 0 fun _ final final' => final = codec.drained ∧ final' = codec'.drained

/-- Fields are read one after the other. Every head takes an octet, so where they stand again, as many heads as they
have octets are enough. -/
theorem draws_fieldHeads {β : Type} {step : β → FieldHeader → WireM β} (hstep : ∀ acc, DrawsField (step acc))
    {most : Nat} {acc : β} (h : codec.Kin codec') (hpending : codec.pendingRead = none)
    (hlast : codec.lastField = codec'.lastField) (channel : Channel) :
    ∃ taken last, channel.Consumes taken last ∧
      ((∃ result id, foldFieldHeads step most acc ⟨codec, channel⟩ = .ok result ⟨codec.atField id, last⟩ ∧
          1 ≤ taken.length ∧ ∀ most', taken.length ≤ most' →
            Reads codec' (foldFieldHeads step most' acc) taken result (codec'.atField id)) ∨
        ∃ err final, foldFieldHeads step most acc ⟨codec, channel⟩ = .error err ⟨final, last⟩) := by
  induction most generalizing acc codec codec' channel with
  | zero => exact ⟨[], channel, .refl channel, .inr ⟨.streamClosed, codec, rfl⟩⟩
  | succ most ih =>
    obtain ⟨head, middle, hhead, ⟨header, final, final', hact, hlen, hheaded, hreads⟩ | ⟨err, final, hact⟩⟩ :=
      draws_fieldBegin h hpending hlast channel
    · cases hheaded with
      | stop htag =>
        refine ⟨head, middle, hhead, .inl ⟨acc, codec.lastField, ?_, hlen, fun most' hmost => ?_⟩⟩
        · rw [foldFieldHeads, bind_of_ok hact, if_pos htag, codec.atField_lastField]
          rfl
        · obtain ⟨more, rfl⟩ := Nat.exists_eq_add_one_of_ne_zero (by omega : most' ≠ 0)
          rw [hlast, codec'.atField_lastField, foldFieldHeads]
          refine hreads.ending ?_
          rw [if_pos htag]
          exact .pure codec' acc
      | field htag hkin hawaited hfinal hfinal' =>
        obtain ⟨body, later, hbody, ⟨value, field, field', hrun, -, ⟨rfl, rfl⟩, hvalue⟩ | ⟨err, field, hrun⟩⟩ :=
          hstep acc header hkin hawaited middle
        · rw [hfinal] at hrun
          rw [hfinal'] at hvalue
          obtain ⟨tail, last, htail, ⟨result, id, hrest, -, hothers⟩ | ⟨err, field, hrest⟩⟩ :=
            @ih (codec.atField header.id) (codec'.atField header.id) value (h.atField header.id)
              (by rw [Codec.pendingRead_atField, hpending]) (by cases h <;> rfl) later
          · rw [Codec.atField_atField] at hrest hothers
            refine ⟨head ++ (body ++ tail), last, hhead.trans (hbody.trans htail), .inl ⟨result, id, ?_, ?_, ?_⟩⟩
            · rw [foldFieldHeads, bind_of_ok hact, if_neg htag, bind_of_ok hrun, hrest]
            · rw [List.length_append]
              omega
            · intro most' hmost
              rw [List.length_append, List.length_append] at hmost
              obtain ⟨more, rfl⟩ := Nat.exists_eq_add_one_of_ne_zero (by omega : most' ≠ 0)
              rw [foldFieldHeads]
              refine hreads.bind ?_
              rw [if_neg htag]
              exact hvalue.bind (hothers more (by omega))
          · refine ⟨head ++ (body ++ tail), last, hhead.trans (hbody.trans htail), .inr ⟨err, field, ?_⟩⟩
            rw [foldFieldHeads, bind_of_ok hact, if_neg htag, bind_of_ok hrun, hrest]
        · refine ⟨head ++ body, later, hhead.trans hbody, .inr ⟨err, field, ?_⟩⟩
          rw [foldFieldHeads, bind_of_ok hact, if_neg htag, bind_of_error hrun]
    · exact ⟨head, middle, hhead, .inr ⟨err, final, bind_of_error hact⟩⟩

/-- A struct is read if its fields are, and leaves the codecs as they were. -/
theorem takes_foldStruct {β : Type} {init : β} {step : β → FieldHeader → WireM β} (hstep : ∀ acc, DrawsField (step acc))
    (h : codec.Kin codec') (hpending : codec.pendingRead = none) : Takes codec codec' (foldStruct init step) 1 := by
  refine (draws_structBegin h).later ?_
  rintro _ _ _ ⟨rfl, rfl⟩ channel
  obtain ⟨taken, last, hconsumes, ⟨result, id, hfold, hlen, hreads⟩ | ⟨err, final, hfold⟩⟩ :=
    @draws_fieldHeads codec.inStruct codec'.inStruct _ _ hstep (channel.available + 1) init h.inStruct
      (by rw [Codec.pendingRead_inStruct, hpending])
      (by rw [Codec.lastField_inStruct, Codec.lastField_inStruct]) channel
  · have hend : readStructEnd ⟨codec.inStruct.atField id, last⟩ = .ok () ⟨codec, last⟩ := by
      cases codec <;> rfl
    refine ⟨taken, last, hconsumes, .inl ⟨result, codec, codec', ?_, hlen, ⟨rfl, rfl⟩, ?_⟩⟩
    · rw [bind_of_ok (get_ok _), bind_of_ok hfold, bind_of_ok hend]
      rfl
    · refine Reads.sized (fun size => do
        let result ← foldFieldHeads step (size + 1) init
        readStructEnd
        return result) fun size hsize => ?_
      exact (hreads (size + 1) (by omega)).ending ((reads_structEnd codec' id).ending (.pure codec' result))
  · refine ⟨taken, last, hconsumes, .inr ⟨err, final, ?_⟩⟩
    rw [bind_of_ok (get_ok _), bind_of_error hfold]

private theorem takes_collect {β : Type} {act : WireM β} (h : Takes codec codec' act 0) (count : Nat) :
    Takes codec codec' (collect act count) 0 := by
  induction count with
  | zero => exact Takes.pure []
  | succ count ih => exact h.bind fun _ => ih.map _

end WireM

namespace Value
open WireM
variable {codec codec' : Codec}

private theorem drawsField_of_takes {depth : Nat} (h : ∀ {codec codec' : Codec} (tag : Tag), codec.Kin codec' →
    codec.pendingRead = none → Takes codec codec' (readWithin depth tag) 1) :
    DrawsField fun header => readWithin depth header.tag := by
  rintro codec codec' header hkin (hnone | hbool)
  · rw [Codec.drained_eq hnone, Codec.drained_eq (hkin.pendingRead.symm.trans hnone)]
    exact (h header.tag hkin hnone).free
  · dsimp only
    rw [hbool]
    cases depth with
    | zero => exact .throw _
    | succ depth => exact (draws_bool hkin).first fun _ _ _ hdrained => .pure hdrained

/-- A value takes an octet at least, but for a truth value that is awaited. -/
theorem takes_readWithin (depth : Nat) (tag : Tag) (h : codec.Kin codec') (hpending : codec.pendingRead = none) :
    Takes codec codec' (readWithin depth tag) 1 := by
  induction depth generalizing codec codec' tag with
  | zero => exact .throw _
  | succ depth ih =>
    have hfield := drawsField_of_takes ih
    have hpart (tag : Tag) : Takes codec codec' (readWithin depth tag) 0 := (ih tag h hpending).free
    cases tag with
    | bool => exact (takes_bool h hpending).map _
    | byte => exact (takes_dispatch h (fun _ => Binary.takes_byte) fun _ _ _ => Compact.takes_byte).map _
    | i16 =>
      exact (takes_dispatch h (fun _ => Binary.takes_i16.less (by decide)) fun _ _ _ => Compact.takes_i16).map _
    | i32 =>
      exact (takes_dispatch h (fun _ => Binary.takes_i32.less (by decide)) fun _ _ _ => Compact.takes_i32).map _
    | i64 =>
      exact (takes_dispatch h (fun _ => Binary.takes_i64.less (by decide)) fun _ _ _ => Compact.takes_i64).map _
    | double =>
      exact (takes_dispatch h (fun _ => Binary.takes_double.less (by decide)) fun _ _ hkin =>
        (Compact.takes_double hkin.version).less (by decide)).map _
    | float =>
      exact (takes_dispatch h (fun _ => Binary.takes_float.less (by decide)) fun _ _ _ =>
        Compact.takes_float.less (by decide)).map _
    | string =>
      exact (takes_dispatch h (fun _ => Binary.takes_run.less (by decide)) fun _ _ hkin =>
        Compact.takes_run hkin.limits).map _
    | struct =>
      refine (takes_foldStruct (fun fields codec codec' header hkin hawaited => ?_) h hpending).map _
      exact (hfield header hkin hawaited).first fun _ _ _ hdrained => .pure hdrained
    | map =>
      refine (takes_mapBegin h).bind fun header => ((takes_collect ?_ _).map _)
      exact (hpart header.key).bind fun _ => (hpart header.value).map _
    | set => exact (takes_listBegin h).bind fun header => (takes_collect (hpart header.elem) _).map _
    | list => exact (takes_listBegin h).bind fun header => (takes_collect (hpart header.elem) _).map _
    | stop => exact .throw _
    | void => exact .throw _

/-- The value of a field, which may be the truth value that is awaited. -/
theorem drawsField_readWithin (depth : Nat) : DrawsField fun header => readWithin depth header.tag :=
  drawsField_of_takes fun tag => takes_readWithin depth tag

end Value

/-- Skipping a value takes what reading it takes. -/
theorem WireM.takes_skip {codec codec' : Codec} (depth : Nat) (tag : Tag) (h : codec.Kin codec')
    (hpending : codec.pendingRead = none) : Takes codec codec' (skip depth tag) 1 := by
  rw [skip_eq_read]
  exact (Value.takes_readWithin depth tag h hpending).bind fun _ => Takes.pure ()

theorem WireM.draws_skip {codec codec' : Codec} (depth : Nat) (tag : Tag) (h : codec.Kin codec')
    (hawaited : codec.pendingRead = none ∨ tag = .bool) : Draws codec codec' (skip depth tag) 0 fun _ final final' =>
    final = codec.drained ∧ final' = codec'.drained := by
  rw [skip_eq_read]
  exact (Value.drawsField_readWithin depth ⟨tag, 0⟩ h hawaited).first fun _ _ _ hdrained => .pure hdrained

end RpcWire
