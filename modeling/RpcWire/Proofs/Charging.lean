import RpcWire.Proofs.Drawing.Values

/-! What skipping is worth. A walk does what skipping does and notes each value that it comes to, however deep that
stands and however it goes. Every value that is skipped to its end has an octet of its own among those taken: the end of
a struct, the size of a container, the head of a field whose truth value stood in it. So whatever sizes the octets
declare, they cannot make skipping do more than they are. -/
namespace RpcWire

/-- A value that a walk came to: the level at which it stands, and what was there before it and after it. -/
structure Visit where
  level : Nat
  tag : Tag
  before : Endpoint Codec
  after : Endpoint Codec
  /-- Whether it was skipped to its end. -/
  completed : Bool

/-- An endpoint with the values come to so far, in the order in which they were left. -/
structure Walking where
  endpoint : Endpoint Codec
  visits : List Visit := []

abbrev WalkM := EStateM WireError Walking

namespace Walking

def onEndpoint {α : Type} : WireM α → WalkM α :=
  onPart Walking.endpoint fun walking endpoint => { walking with endpoint }

def visit (level : Nat) (tag : Tag) (act : WalkM Unit) : WalkM Unit := fun walking =>
  match act walking with
  | .ok () ⟨endpoint, visits⟩ => .ok () ⟨endpoint, visits ++ [⟨level, tag, walking.endpoint, endpoint, true⟩]⟩
  | .error err ⟨endpoint, visits⟩ => .error err ⟨endpoint, visits ++ [⟨level, tag, walking.endpoint, endpoint, false⟩]⟩

def walkFieldHeads (step : FieldHeader → WalkM Unit) : Nat → WalkM Unit
  | 0 => throw .streamClosed
  | most + 1 => do
    let header ← onEndpoint WireM.readFieldBegin
    if header.tag = .stop then return
    step header
    walkFieldHeads step most

def walkStruct (step : FieldHeader → WalkM Unit) : WalkM Unit := do
  onEndpoint WireM.readStructBegin
  walkFieldHeads step ((← get).endpoint.channel.available + 1)
  onEndpoint WireM.readStructEnd

def walkTimes (act : WalkM Unit) : Nat → WalkM Unit
  | 0 => pure ()
  | count + 1 => do
    act
    walkTimes act count

/-- Skips a value that stands at a level, with so many levels left, and notes it and the values in it. -/
def walk : Nat → Nat → Tag → WalkM Unit
  | level, 0, tag => visit level tag (throw .depthLimit)
  | level, depth + 1, tag => visit level tag <|
    match tag with
    | .struct => walkStruct fun header => walk (level + 1) depth header.tag
    | .map => do
      let header ← onEndpoint WireM.readMapBegin
      walkTimes (do walk (level + 1) depth header.key; walk (level + 1) depth header.value) header.size
    | .set => do
      let header ← onEndpoint WireM.readSetBegin
      walkTimes (walk (level + 1) depth header.elem) header.size
    | .list => do
      let header ← onEndpoint WireM.readListBegin
      walkTimes (walk (level + 1) depth header.elem) header.size
    | leaf => onEndpoint (WireM.skip 1 leaf)

end Walking

/-- The value stands a level too deep: it fails at once, and that ends everything where it stood. -/
structure Visit.Refused (visit : Visit) (bound : Nat) (err : WireError) (last : Endpoint Codec) : Prop where
  level : visit.level = bound + 1
  completed : visit.completed = false
  before : visit.before = last
  after : visit.after = last
  err : err = .depthLimit

/-- From `codec`, a walk does what the plain action does. With the credit in hand, every value completed is paid for by
an octet taken; if the walk succeeds, `left` octets are still to be spent then. Values are at most `bound` levels deep,
or one is refused. -/
def Charges {α : Type} (bound : Nat) (codec : Codec) (plain : WireM α) (walk : WalkM α) (credit left : Nat)
    (after : α → Codec → Prop) : Prop :=
  ∀ (channel : Channel) (visits : List Visit), ∃ taken last news, channel.Consumes taken last ∧
    ((∃ value final, plain ⟨codec, channel⟩ = .ok value ⟨final, last⟩ ∧
        walk ⟨⟨codec, channel⟩, visits⟩ = .ok value ⟨⟨final, last⟩, visits ++ news⟩ ∧ after value final ∧
        news.countP Visit.completed + left ≤ taken.length + credit ∧
        ∀ visit ∈ news, visit.completed = true ∧ visit.level ≤ bound) ∨
      ∃ err final, plain ⟨codec, channel⟩ = .error err ⟨final, last⟩ ∧
        walk ⟨⟨codec, channel⟩, visits⟩ = .error err ⟨⟨final, last⟩, visits ++ news⟩ ∧
        news.countP Visit.completed ≤ taken.length + credit ∧
        ∀ visit ∈ news, visit.level ≤ bound ∨ visit.Refused bound err ⟨final, last⟩)

namespace Charges
open Walking
variable {α β : Type} {bound : Nat} {codec : Codec} {plain : WireM α} {walk : WalkM α} {credit left : Nat}
  {after : α → Codec → Prop}

private theorem pure {value : α} (h : after value codec) :
    Charges bound codec (pure value) (pure value) credit credit after := by
  intro channel visits
  refine ⟨[], channel, [], .refl channel, .inl ⟨value, codec, rfl, ?_, h, Nat.le_refl _, List.forall_mem_nil _⟩⟩
  rw [List.append_nil]
  rfl

private theorem refused (tag : Tag) {after : Unit → Codec → Prop} :
    Charges bound codec (throw .depthLimit) (Walking.visit (bound + 1) tag (throw .depthLimit)) credit left after :=
  fun channel _ => ⟨[], channel, [⟨bound + 1, tag, ⟨codec, channel⟩, ⟨codec, channel⟩, false⟩], .refl channel,
    .inr ⟨.depthLimit, codec, rfl, rfl, Nat.zero_le _, List.forall_mem_singleton.mpr (.inr ⟨rfl, rfl, rfl, rfl, rfl⟩)⟩⟩

private theorem throw (err : WireError) :
    Charges bound codec (throw err : WireM α) (throw err) credit left after := by
  intro channel visits
  refine ⟨[], channel, [], .refl channel, .inr ⟨err, codec, rfl, ?_, Nat.zero_le _, List.forall_mem_nil _⟩⟩
  rw [List.append_nil]
  rfl

private theorem of_draws {least : Nat} {mid : α → Codec → Codec → Prop} (h : Draws codec codec plain least mid)
    (hafter : ∀ value final final', mid value final final' → after value final) :
    Charges bound codec plain (onEndpoint plain) 0 least after := by
  intro channel visits
  obtain ⟨taken, last, hconsumes, ⟨value, final, final', hact, hleast, hmid, -⟩ | ⟨err, final, hact⟩⟩ := h channel
  · refine ⟨taken, last, [], hconsumes, .inl ⟨value, final, hact, ?_, hafter _ _ _ hmid, ?_, List.forall_mem_nil _⟩⟩
    · rw [List.append_nil]
      exact onPart_ok hact
    · rwa [List.countP_nil, Nat.zero_add]
  · refine ⟨taken, last, [], hconsumes, .inr ⟨err, final, hact, ?_, Nat.zero_le _, List.forall_mem_nil _⟩⟩
    rw [List.append_nil]
    exact onPart_error hact

private theorem of_takes {least : Nat} (h : Takes codec codec plain least) :
    Charges bound codec plain (onEndpoint plain) 0 least fun _ final => final = codec :=
  of_draws h fun _ _ _ h => h.1

private theorem bind {next : α → WireM β} {walkNext : α → WalkM β} {rest : Nat} {after' : β → Codec → Prop}
    (h : Charges bound codec plain walk credit left after)
    (hnext : ∀ value final, after value final → Charges bound final (next value) (walkNext value) left rest after') :
    Charges bound codec (plain >>= next) (walk >>= walkNext) credit rest after' := by
  intro channel visits
  obtain ⟨taken, middle, news, hconsumes, ⟨value, final, hplain, hwalk, hafter, hpaid, hsound⟩ |
    ⟨err, final, hplain, hwalk, hpaid, hsound⟩⟩ := h channel visits
  · obtain ⟨taken', last, news', hconsumes', hrest⟩ := hnext value final hafter middle (visits ++ news)
    refine ⟨taken ++ taken', last, news ++ news', hconsumes.trans hconsumes', ?_⟩
    rw [bind_of_ok hplain, bind_of_ok hwalk, ← List.append_assoc, List.countP_append, List.length_append]
    rcases hrest with ⟨result, ending, hplain', hwalk', hafter', hpaid', hsound'⟩ |
      ⟨err, ending, hplain', hwalk', hpaid', hsound'⟩
    · exact .inl ⟨result, ending, hplain', hwalk', hafter', by omega, List.forall_mem_append.mpr ⟨hsound, hsound'⟩⟩
    · exact .inr ⟨err, ending, hplain', hwalk', by omega,
        List.forall_mem_append.mpr ⟨fun visit hvisit => .inl (hsound visit hvisit).2, hsound'⟩⟩
  · exact ⟨taken, middle, news, hconsumes, .inr ⟨err, final, bind_of_error hplain, bind_of_error hwalk, hpaid, hsound⟩⟩

/-- Credit that is not needed is left. -/
theorem frame (h : Charges bound codec plain walk credit left after) (more : Nat) :
    Charges bound codec plain walk (credit + more) (left + more) after := by
  intro channel visits
  obtain ⟨taken, last, news, hconsumes, ⟨value, final, hplain, hwalk, hafter, hpaid, hsound⟩ |
    ⟨err, final, hplain, hwalk, hpaid, hsound⟩⟩ := h channel visits
  · exact ⟨taken, last, news, hconsumes, .inl ⟨value, final, hplain, hwalk, hafter, by omega, hsound⟩⟩
  · exact ⟨taken, last, news, hconsumes, .inr ⟨err, final, hplain, hwalk, by omega, hsound⟩⟩

private theorem mono {less : Nat} {after' : α → Codec → Prop}
    (h : Charges bound codec plain walk credit left after)
    (hless : less ≤ left) (hafter' : ∀ value final, after value final → after' value final) :
    Charges bound codec plain walk credit less after' := by
  intro channel visits
  obtain ⟨taken, last, news, hconsumes, ⟨value, final, hplain, hwalk, hafter, hpaid, hsound⟩ | hfailed⟩ :=
    h channel visits
  · exact ⟨taken, last, news, hconsumes, .inl ⟨value, final, hplain, hwalk, hafter' _ _ hafter, by omega, hsound⟩⟩
  · exact ⟨taken, last, news, hconsumes, .inr hfailed⟩

/-- A value that is skipped to its end is paid for out of what is left. -/
theorem visit {plain : WireM Unit} {walk : WalkM Unit} {after : Unit → Codec → Prop} {level : Nat} (tag : Tag)
    (h : Charges bound codec plain walk credit (left + 1) after) (hlevel : level ≤ bound) :
    Charges bound codec plain (Walking.visit level tag walk) credit left after := by
  intro channel visits
  obtain ⟨taken, last, news, hconsumes, ⟨value, final, hplain, hwalk, hafter, hpaid, hsound⟩ |
    ⟨err, final, hplain, hwalk, hpaid, hsound⟩⟩ := h channel visits
  · refine ⟨taken, last, news ++ [⟨level, tag, ⟨codec, channel⟩, ⟨final, last⟩, true⟩], hconsumes,
      .inl ⟨value, final, hplain, ?_, hafter, ?_, ?_⟩⟩
    · rw [Walking.visit, hwalk, ← List.append_assoc]
    · rw [List.countP_append, List.countP_singleton, if_pos rfl]
      omega
    · exact List.forall_mem_append.mpr ⟨hsound, List.forall_mem_singleton.mpr ⟨rfl, hlevel⟩⟩
  · refine ⟨taken, last, news ++ [⟨level, tag, ⟨codec, channel⟩, ⟨final, last⟩, false⟩], hconsumes,
      .inr ⟨err, final, hplain, ?_, ?_, ?_⟩⟩
    · rw [Walking.visit, hwalk, ← List.append_assoc]
    · rw [List.countP_append, List.countP_singleton]
      exact hpaid
    · exact List.forall_mem_append.mpr ⟨hsound, List.forall_mem_singleton.mpr (.inl hlevel)⟩

private theorem times {plain : WireM Unit} {walk : WalkM Unit}
    (h : Charges bound codec plain walk credit credit fun _ final => final = codec) (count : Nat) :
    Charges bound codec (WireM.times plain count) (walkTimes walk count) credit credit
      fun _ final => final = codec := by
  induction count with
  | zero => exact .pure rfl
  | succ count ih =>
    refine h.bind ?_
    rintro _ _ rfl
    exact ih

/-- The value of a field comes with the credit of its head, whose truth value it may be. -/
def Field (bound : Nat) (plain : FieldHeader → WireM Unit) (walk : FieldHeader → WalkM Unit) : Prop :=
  ∀ ⦃codec : Codec⦄ (header : FieldHeader), codec.pendingRead = none ∨ header.tag = .bool →
    Charges bound codec (plain header) (walk header) 1 0 fun _ final => final = codec.drained

/-- The head of a field pays for its value, and the end of the fields is left. -/
theorem fieldHeads {plain : FieldHeader → WireM Unit} {walk : FieldHeader → WalkM Unit} (hstep : Field bound plain walk)
    (most : Nat) (hpending : codec.pendingRead = none) :
    Charges bound codec (WireM.foldFieldHeads (fun _ => plain) most ()) (walkFieldHeads walk most) 0 1 fun _ final =>
      ∃ id, final = codec.atField id := by
  -- Each head takes an octet, which is the credit of its value; the octet of the last one is what is left.
  induction most generalizing codec with
  | zero => exact .throw _
  | succ most ih =>
    refine (of_draws (WireM.draws_fieldBegin (.refl codec) hpending rfl) fun header final final' h =>
      (⟨final', h⟩ : ∃ final', codec.Headed codec header final final')).bind ?_
    rintro header final ⟨final', hheaded⟩
    cases hheaded with
    | stop htag =>
      rw [if_pos htag, if_pos htag]
      exact .pure ⟨codec.lastField, codec.atField_lastField.symm⟩
    | field htag _ hawaited hfinal _ =>
      rw [if_neg htag, if_neg htag]
      refine (hstep header hawaited).bind ?_
      rintro _ _ rfl
      rw [hfinal]
      refine (ih (by rw [Codec.pendingRead_atField, hpending])).mono (Nat.le_refl 1) ?_
      rintro _ _ ⟨id, rfl⟩
      exact ⟨id, Codec.atField_atField codec header.id id⟩

/-- The end of its fields pays for a struct. -/
theorem struct {plain : FieldHeader → WireM Unit} {walk : FieldHeader → WalkM Unit} (hstep : Field bound plain walk)
    (hpending : codec.pendingRead = none) :
    Charges bound codec (WireM.foldStruct () fun _ => plain) (walkStruct walk) 0 1 fun _ final => final = codec := by
  refine (of_draws (WireM.draws_structBegin (.refl codec)) fun _ _ _ h => h.1).bind ?_
  rintro _ _ rfl
  have hidle : codec.inStruct.pendingRead = none := by rw [Codec.pendingRead_inStruct, hpending]
  refine fun channel => (fieldHeads hstep (channel.available + 1) hidle).bind ?_ channel
  rintro _ _ ⟨id, rfl⟩ channel visits
  have hend : WireM.readStructEnd ⟨codec.inStruct.atField id, channel⟩ = .ok () ⟨codec, channel⟩ := by
    cases codec <;> rfl
  refine ⟨[], channel, [], .refl channel, .inl ⟨(), codec, ?_, ?_, rfl, Nat.le_refl 1, List.forall_mem_nil _⟩⟩
  · rw [bind_of_ok hend]
    rfl
  · rw [List.append_nil]
    exact onPart_ok hend

end Charges

namespace Walking
open Charges
variable {bound level depth : Nat}

private theorem field_of_charges (h : ∀ {codec : Codec} (tag : Tag), codec.pendingRead = none →
      Charges bound codec (WireM.skip depth tag) (walk level depth tag) 0 0 fun _ final => final = codec)
    (hlevel : level + depth = bound + 1) :
    Charges.Field bound (fun header => WireM.skip depth header.tag) fun header => walk level depth header.tag := by
  rintro codec header (hnone | hbool)
  · rw [Codec.drained_eq hnone]
    exact ((h header.tag hnone).frame 1).mono (Nat.zero_le _) fun _ _ h => h
  · dsimp only
    rw [hbool]
    cases depth with
    | zero =>
      obtain rfl : level = bound + 1 := hlevel
      exact .refused .bool
    | succ depth =>
      -- The truth value may have stood in the head, so it is not known to take an octet itself.
      have hvalue := @of_draws _ bound codec _ (fun _ final => final = codec.drained) _ _
        (WireM.draws_skip 1 .bool (.refl codec) (.inr rfl)) fun _ _ _ h => h.1
      exact (hvalue.frame 1).visit .bool (by omega)

/-- Every value that a walk completes is paid for with an octet of its own. -/
theorem charges_walk {codec : Codec} (tag : Tag) (hlevel : level + depth = bound + 1)
    (hpending : codec.pendingRead = none) :
    Charges bound codec (WireM.skip depth tag) (walk level depth tag) 0 0 fun _ final => final = codec := by
  induction depth generalizing level codec tag with
  | zero =>
    obtain rfl : level = bound + 1 := hlevel
    exact .refused tag
  | succ depth ih =>
    have hinner : level + 1 + depth = bound + 1 := by omega
    have hpart (tag : Tag) := (ih tag hinner hpending).frame 1
    have hlist := @of_takes _ bound _ _ _ (WireM.takes_listBegin (.refl codec))
    have hleaf := @of_takes _ bound _ _ _ (WireM.takes_skip 1 tag (.refl codec) hpending)
    refine .visit tag ?_ (by omega)
    cases tag with
    | struct => exact .struct (field_of_charges (fun tag => ih tag hinner) hinner) hpending
    | map =>
      refine (of_takes (WireM.takes_mapBegin (.refl codec))).bind ?_
      rintro header _ rfl
      refine .times ((hpart header.key).bind ?_) header.size
      rintro _ _ rfl
      exact hpart header.value
    | set =>
      refine hlist.bind ?_
      rintro header _ rfl
      exact .times (hpart header.elem) header.size
    | list =>
      refine hlist.bind ?_
      rintro header _ rfl
      exact .times (hpart header.elem) header.size
    | _ => exact hleaf

/-- Skipping takes a front of what is unread, and at least as many octets as there are values that it skips to their
end, at whatever level, whether it succeeds or fails. It writes nothing; if it succeeds, the codec is as it was. No
value stands more than one level deeper than is allowed, and where one does, everything ends in front of it. -/
theorem skip_pays (depth : Nat) (tag : Tag) {codec : Codec} (h : codec.pendingRead = none) (channel : Channel) :
    ∃ taken visits last, channel.unread = taken ++ last.channel.unread ∧ last.channel.pending = channel.pending ∧
      visits.countP Visit.completed ≤ taken.length ∧
      ((WireM.skip depth tag ⟨codec, channel⟩ = .ok () last ∧
          walk 1 depth tag ⟨⟨codec, channel⟩, []⟩ = .ok () ⟨last, visits⟩ ∧ last.codec = codec ∧
          ∀ visit ∈ visits, visit.completed = true ∧ visit.level ≤ depth) ∨
        ∃ err, WireM.skip depth tag ⟨codec, channel⟩ = .error err last ∧
          walk 1 depth tag ⟨⟨codec, channel⟩, []⟩ = .error err ⟨last, visits⟩ ∧
          ∀ visit ∈ visits, visit.level ≤ depth ∨ visit.Refused depth err last) := by
  obtain ⟨taken, last, visits, hconsumes, ⟨_, final, hskip, hwalk, rfl, hpaid, hsound⟩ |
    ⟨err, final, hskip, hwalk, hpaid, hsound⟩⟩ := charges_walk tag (Nat.add_comm 1 depth) h channel []
  · exact ⟨taken, visits, ⟨final, last⟩, hconsumes.unread, hconsumes.pending, hpaid, .inl ⟨hskip, hwalk, rfl, hsound⟩⟩
  · exact ⟨taken, visits, ⟨final, last⟩, hconsumes.unread, hconsumes.pending, hpaid, .inr ⟨err, hskip, hwalk, hsound⟩⟩

/-- A truth value in the head of its field, and a list of structs where two levels are allowed: one value is skipped to
its end, three octets are taken, and the struct in the list keeps its own. -/
theorem skip_pays_refused : (Codec.compact {}).pendingRead = none ∧ ∃ (channel : Channel) (taken : Bytes)
    (visits : List Visit) (last : Endpoint Codec),
      channel = { transport := .raw { unread := [0x11, 0x19, 0x1c, 0x11, 0] } } ∧
      walk 1 2 .struct ⟨⟨.compact {}, channel⟩, []⟩ = .error .depthLimit ⟨last, visits⟩ ∧
      visits.map (fun visit => (visit.level, visit.tag, visit.completed)) =
        [(2, .bool, true), (3, .struct, false), (2, .list, false), (1, .struct, false)] ∧
      channel.unread = taken ++ last.channel.unread ∧ last.channel.unread = [0x11, 0] ∧
      visits.countP Visit.completed ≤ taken.length := by
  have hpending : (Codec.compact {}).pendingRead = none := rfl
  let channel : Channel := { transport := .raw { unread := [0x11, 0x19, 0x1c, 0x11, 0] } }
  have hrun : (match walk 1 2 .struct ⟨⟨.compact {}, channel⟩, []⟩ with
      | .ok _ _ => none
      | .error err after => some (err, after.visits.map fun visit => (visit.level, visit.tag, visit.completed),
          after.endpoint.channel.unread)) = some (.depthLimit,
        [(2, .bool, true), (3, .struct, false), (2, .list, false), (1, .struct, false)], [0x11, 0]) := by
    decide +kernel
  obtain ⟨taken, visits, last, hunread, -, hpaid, ⟨-, hwalk, -⟩ | ⟨err, -, hwalk, -⟩⟩ :=
    skip_pays 2 .struct hpending channel
  · rw [hwalk] at hrun
    cases hrun
  · rw [hwalk] at hrun
    simp only [Option.some.injEq, Prod.mk.injEq] at hrun
    obtain ⟨rfl, hvisits, hrest⟩ := hrun
    exact ⟨hpending, channel, taken, visits, last, rfl, hwalk, hvisits, hunread, hrest, hpaid⟩

end Walking
end RpcWire
