import RpcWire.Proofs.Layout.ValueReading
import RpcWire.Proofs.Tracking.Codecs
import RpcWire.Proofs.Unread

/-! What readers consume of octets that nobody laid out for them. A reader takes a front of what is unread, whether it
succeeds or fails, and where it succeeds that front is all that mattered: wherever the same octets stand, it takes them
again and comes to the same. -/
namespace RpcWire

/-- From `codec`, the action consumes a front of what is unread. If it succeeds, the front has at least so many octets,
and wherever a channel holds it, the action from `codec'` takes exactly it and gives the same value; the two codecs are
then as `after` says. -/
def Draws {κ α : Type} (codec codec' : κ) (act : CodecM κ α) (least : Nat) (after : α → κ → κ → Prop) : Prop :=
  ∀ channel : Channel, ∃ taken last, channel.Consumes taken last ∧
    ((∃ value final final', act ⟨codec, channel⟩ = .ok value ⟨final, last⟩ ∧ least ≤ taken.length ∧
        after value final final' ∧ Reads codec' act taken value final') ∨
      ∃ err final, act ⟨codec, channel⟩ = .error err ⟨final, last⟩)

abbrev Takes {κ α : Type} (codec codec' : κ) (act : CodecM κ α) (least : Nat) : Prop :=
  Draws codec codec' act least fun _ final final' => final = codec ∧ final' = codec'

namespace Draws
variable {κ α β : Type} {codec codec' : κ} {act : CodecM κ α} {least more : Nat} {mid after' : α → κ → κ → Prop}
  {after : β → κ → κ → Prop}

theorem pure {value : β} (h : after value codec codec') : Draws codec codec' (pure value) 0 after :=
  fun channel => ⟨[], channel, .refl channel, .inl ⟨value, codec, codec', rfl, Nat.le_refl 0, h, .pure codec' value⟩⟩

theorem throw (err : WireError) : Draws codec codec' (throw err : CodecM κ β) least after :=
  fun channel => ⟨[], channel, .refl channel, .inr ⟨err, codec, rfl⟩⟩

theorem bind {next : α → CodecM κ β} (h : Draws codec codec' act least mid)
    (hnext : ∀ value final final', mid value final final' → Draws final final' (next value) more after) :
    Draws codec codec' (act >>= next) (least + more) after := by
  intro channel
  obtain ⟨taken, middle, hconsumes, ⟨value, final, final', hact, hleast, hmid, hreads⟩ | ⟨err, final, hact⟩⟩ :=
    h channel
  · obtain ⟨taken', last, hconsumes', hrest⟩ := hnext value final final' hmid middle
    refine ⟨taken ++ taken', last, hconsumes.trans hconsumes', ?_⟩
    rcases hrest with ⟨result, ending, ending', hrun, hmore, hafter, hreads'⟩ | ⟨err, ending, hrun⟩
    · refine .inl ⟨result, ending, ending', (bind_of_ok hact).trans hrun, ?_, hafter, hreads.bind hreads'⟩
      rw [List.length_append]
      exact Nat.add_le_add hleast hmore
    · exact .inr ⟨err, ending, (bind_of_ok hact).trans hrun⟩
  · exact ⟨taken, middle, hconsumes, .inr ⟨err, final, bind_of_error hact⟩⟩

theorem mono {less : Nat} (h : Draws codec codec' act least mid) (hless : less ≤ least)
    (hafter : ∀ value final final', mid value final final' → after' value final final') :
    Draws codec codec' act less after' := by
  intro channel
  obtain ⟨taken, last, hconsumes, ⟨value, final, final', hact, hleast, hmid, hreads⟩ | hfailed⟩ := h channel
  · exact ⟨taken, last, hconsumes,
      .inl ⟨value, final, final', hact, Nat.le_trans hless hleast, hafter _ _ _ hmid, hreads⟩⟩
  · exact ⟨taken, last, hconsumes, .inr hfailed⟩

/-- However it ends, a front of what is unread was consumed. -/
theorem consumes (h : Draws codec codec' act least mid) (channel : Channel) :
    ∃ taken, channel.Consumes taken (stateOf (act ⟨codec, channel⟩)).channel := by
  obtain ⟨taken, last, hconsumes, ⟨value, final, final', hact, -⟩ | ⟨err, final, hact⟩⟩ := h channel
  · exact ⟨taken, by rw [hact]; exact hconsumes⟩
  · exact ⟨taken, by rw [hact]; exact hconsumes⟩

/-- What comes after may take nothing. -/
theorem first {next : α → CodecM κ β} (h : Draws codec codec' act least mid)
    (hnext : ∀ value final final', mid value final final' → Draws final final' (next value) 0 after) :
    Draws codec codec' (act >>= next) least after :=
  h.bind hnext

/-- What comes before may take nothing. -/
theorem later {next : α → CodecM κ β} (h : Draws codec codec' act 0 mid)
    (hnext : ∀ value final final', mid value final final' → Draws final final' (next value) least after) :
    Draws codec codec' (act >>= next) least after := by
  have hall := h.bind hnext
  rwa [Nat.zero_add] at hall

theorem ite {cond : Prop} [Decidable cond] {act other : CodecM κ β} (h : cond → Draws codec codec' act least after)
    (hother : ¬cond → Draws codec codec' other least after) :
    Draws codec codec' (if cond then act else other) least after := by
  split
  · exact h ‹_›
  · exact hother ‹_›

/-- Looking at codecs that agree on what is looked for. -/
theorem get {next : Endpoint κ → CodecM κ β} (h : ∀ channel channel', next ⟨codec, channel⟩ = next ⟨codec', channel'⟩)
    (hnext : ∀ channel, Draws codec codec' (next ⟨codec, channel⟩) least after) :
    Draws codec codec' (get >>= next) least after := by
  intro channel
  obtain ⟨taken, last, hconsumes, ⟨value, final, final', hact, hleast, hafter, hreads⟩ | ⟨err, final, hact⟩⟩ :=
    hnext channel channel
  · refine ⟨taken, last, hconsumes, .inl ⟨value, final, final', hact, hleast, hafter, Reads.get fun channel' => ?_⟩⟩
    rw [← h channel channel']
    exact hreads
  · exact ⟨taken, last, hconsumes, .inr ⟨err, final, hact⟩⟩

end Draws

namespace Takes
variable {κ α β : Type} {codec codec' : κ} {act : CodecM κ α} {least : Nat} {after : β → κ → κ → Prop}

theorem pure (value : α) : Takes codec codec' (pure value) 0 := Draws.pure ⟨rfl, rfl⟩

theorem bind {next : α → CodecM κ β} (h : Takes codec codec' act least)
    (hnext : ∀ value, Draws codec codec' (next value) 0 after) : Draws codec codec' (act >>= next) least after := by
  refine Draws.first h ?_
  rintro value _ _ ⟨rfl, rfl⟩
  exact hnext value

theorem map (f : α → β) (h : Takes codec codec' act least) : Takes codec codec' (do return f (← act)) least :=
  h.bind fun value => Takes.pure (f value)

theorem less {less : Nat} (h : Takes codec codec' act least) (hle : less ≤ least) : Takes codec codec' act less :=
  Draws.mono h hle fun _ _ _ h => h

theorem free (h : Takes codec codec' act least) : Takes codec codec' act 0 := h.less (Nat.zero_le _)

end Takes

namespace Endpoint
variable {κ α : Type} {codec codec' : κ}

private theorem takes_onChannel (n : Nat) (f : Bytes → α) :
    Takes codec codec' (onChannel (do return f (← Channel.read n)) : CodecM κ α) n := by
  intro channel
  rcases Channel.read_consumes n channel with ⟨bytes, last, hread, hlength, hconsumes⟩ | ⟨err, last, hread, hconsumes⟩
  · refine ⟨bytes, last, hconsumes, .inl ⟨f bytes, codec, codec', onPart_ok (bind_of_ok hread),
      Nat.le_of_eq hlength.symm, ⟨rfl, rfl⟩, reads_onChannel codec' fun channel after hr => ?_⟩⟩
    rw [hlength] at hr
    exact bind_of_ok hr
  · exact ⟨[], last, hconsumes, .inr ⟨err, codec, onPart_error (bind_of_error hread)⟩⟩

private theorem takes_bytes (n : Nat) : Takes codec codec' (onChannel (Channel.read n) : CodecM κ Bytes) n := by
  have hread := @takes_onChannel κ Bytes codec codec' n id
  simpa only [id, bind_pure] using hread

private theorem takes_byte : Takes codec codec' (readByte : CodecM κ UInt8) 1 := takes_onChannel 1 _

private theorem takes_bigEndian (width : Nat) : Takes codec codec' (readBigEndian width : CodecM κ Nat) width :=
  takes_onChannel width _

private theorem takes_checkLimit (size limit : Nat) :
    Takes codec codec' (checkLimit size limit : CodecM κ Unit) 0 :=
  .ite (fun _ => .throw _) fun _ => Takes.pure ()

private theorem takes_decodeText (bytes : Bytes) :
    Takes codec codec' (decodeText bytes : CodecM κ String) 0 := by
  rw [decodeText]
  split
  · exact .throw _
  · exact Takes.pure _

private theorem takes_decodeTag (byte : UInt8) : Takes codec codec' (decodeTag byte : CodecM κ Tag) 0 := by
  rw [decodeTag]
  split
  · exact .throw _
  · exact Takes.pure _

private theorem takes_decodeKind (byte : UInt8) :
    Takes codec codec' (decodeKind byte : CodecM κ MessageKind) 0 := by
  rw [decodeKind]
  split
  · exact .throw _
  · exact Takes.pure _

end Endpoint

namespace Binary
open Endpoint
variable {codec : Binary}

theorem takes_i16 : Takes codec codec readI16 2 := (takes_bigEndian 2).map _

theorem takes_i32 : Takes codec codec readI32 4 := (takes_bigEndian 4).map _

theorem takes_i64 : Takes codec codec readI64 8 := (takes_bigEndian 8).map _

theorem takes_byte : Takes codec codec readByte 1 := Endpoint.takes_byte.map _

theorem takes_bool : Takes codec codec readBool 1 := Endpoint.takes_byte.map _

theorem takes_double : Takes codec codec readDouble 8 := (takes_bigEndian 8).map _

theorem takes_float : Takes codec codec readFloat 4 := (takes_bigEndian 4).map _

private theorem takes_size (limit : Nat) : Takes codec codec (readSize limit) 4 := by
  refine takes_i32.bind fun size => ?_
  split
  · exact .throw _
  · exact (takes_checkLimit _ limit).bind fun _ => Takes.pure _

theorem takes_run : Takes codec codec readBytes 4 :=
  .get (fun _ _ => rfl) fun _ => (takes_size _).bind fun size => (takes_bytes size).free

private theorem takes_text : Takes codec codec readText 4 := takes_run.bind takes_decodeText

private theorem takes_tag : Takes codec codec readTag 1 := Endpoint.takes_byte.bind takes_decodeTag

theorem takes_messageBegin : Takes codec codec readMessageBegin 4 := by
  refine takes_i32.bind fun word => .get (fun _ _ => rfl) fun _ => ?_
  refine .ite (fun _ => .ite (fun _ => .throw _) fun _ => ?_) fun _ => .ite (fun _ => .throw _) fun _ => ?_
  · exact (takes_decodeKind _).bind fun kind => takes_text.free.bind fun name => (takes_i32.map _).free
  · refine (takes_checkLimit _ _).bind fun _ => (takes_bytes _).free.bind fun bytes => (takes_decodeText _).bind
      fun name => ?_
    exact Endpoint.takes_byte.free.bind fun byte => (takes_decodeKind _).bind fun kind => (takes_i32.map _).free

theorem takes_fieldBegin : Takes codec codec readFieldBegin 1 :=
  takes_tag.bind fun _ => .ite (fun _ => Takes.pure _) fun _ => (takes_i16.map _).free

theorem takes_mapBegin : Takes codec codec readMapBegin 1 := by
  refine takes_tag.bind fun key => takes_tag.free.bind fun value => .get (fun _ _ => rfl) fun _ => ?_
  exact ((takes_size _).map _).free

theorem takes_listBegin : Takes codec codec readListBegin 1 :=
  takes_tag.bind fun _ => .get (fun _ _ => rfl) fun _ => ((takes_size _).map _).free

end Binary

namespace Compact
open Endpoint

/-- Two codecs that read values alike: they have one version and the same limits, and await the same truth value. -/
structure Kin (codec codec' : Compact) : Prop where
  version : codec.version = codec'.version
  limits : codec.limits = codec'.limits
  pendingRead : codec.pendingRead = codec'.pendingRead

variable {codec codec' : Compact}

private theorem takes_groups (most left : Nat) : Takes codec codec' (readGroups most left) 1 := by
  induction left with
  | zero => exact .throw _
  | succ left ih => exact Endpoint.takes_byte.bind fun first => .ite (fun _ => (ih.map _).free) fun _ => Takes.pure _

private theorem takes_varint (most : Nat) :
    Takes codec codec' (readVarint most) 1 := (takes_groups most most).map _

private theorem takes_varint32 : Takes codec codec' readVarint32 1 :=
  (takes_varint 5).bind fun _ => .ite (fun _ => .throw _) fun _ => Takes.pure _

private theorem takes_varint64 : Takes codec codec' readVarint64 1 := (takes_varint 10).map _

private theorem takes_size (limit : Nat) : Takes codec codec' (readSize limit) 1 := by
  refine takes_varint32.bind fun _ => .ite (fun _ => .throw _) fun _ => ?_
  exact (takes_checkLimit _ limit).bind fun _ => Takes.pure _

theorem takes_i16 : Takes codec codec' readI16 1 :=
  takes_varint32.bind fun _ => .ite (fun _ => .throw _) fun _ => Takes.pure _

theorem takes_i32 : Takes codec codec' readI32 1 := takes_varint32.map _

theorem takes_i64 : Takes codec codec' readI64 1 := takes_varint64.map _

theorem takes_byte : Takes codec codec' readByte 1 := Endpoint.takes_byte.map _

theorem takes_double (hversion : codec.version = codec'.version) : Takes codec codec' readDouble 8 := by
  refine (takes_bytes 8).bind fun bytes => .get (fun _ _ => ?_) fun _ => ?_
  · rw [hversion]
  · split
    · exact Takes.pure _
    · exact Takes.pure _

theorem takes_float : Takes codec codec' readFloat 4 := (takes_bigEndian 4).map _

theorem takes_run (hlimits : codec.limits = codec'.limits) : Takes codec codec' readBytes 1 :=
  .get (fun _ _ => by rw [hlimits]) fun _ => (takes_size _).bind fun size => (takes_bytes size).free

private theorem takes_text (hlimits : codec.limits = codec'.limits) : Takes codec codec' readText 1 :=
  (takes_run hlimits).bind takes_decodeText

theorem draws_onCodec (f : Compact → Compact) :
    Draws codec codec' (onCodec f) 0 fun _ final final' => final = f codec ∧ final' = f codec' :=
  fun channel => ⟨[], channel, .refl channel,
    .inl ⟨(), f codec, f codec', rfl, Nat.le_refl 0, ⟨rfl, rfl⟩, reads_onCodec codec' f⟩⟩

/-- What changes the codecs before all else. -/
theorem draws_codec {α : Type} {f : Compact → Compact} {next : M α} {least : Nat} {after : α → Compact → Compact → Prop}
    (h : Draws (f codec) (f codec') next least after) : Draws codec codec' (do onCodec f; next) least after := by
  refine (draws_onCodec f).later ?_
  rintro _ _ _ ⟨rfl, rfl⟩
  exact h

/-- A truth value is an octet where none is awaited. -/
theorem takes_bool (h : codec.pendingRead = none) (h' : codec'.pendingRead = none) : Takes codec codec' readBool 1 := by
  refine .get (fun _ _ => ?_) fun _ => ?_
  · rw [h, h']
  · simp only [h]
    exact Endpoint.takes_byte.map _

/-- A truth value that is awaited takes nothing. -/
theorem draws_pendingBool {value : Bool} (h : codec.pendingRead = some value) (h' : codec'.pendingRead = some value) :
    Draws codec codec' readBool 0 fun _ final final' =>
      final = { codec with pendingRead := none } ∧ final' = { codec' with pendingRead := none } := by
  refine .get (fun _ _ => ?_) fun _ => ?_
  · rw [h, h']
  · simp only [h]
    exact draws_codec (.pure ⟨rfl, rfl⟩)

private theorem takes_decodeNibble (nibble : UInt8) : Takes codec codec' (decodeNibble nibble) 0 := by
  rw [decodeNibble]
  split
  · exact .throw _
  · exact Takes.pure _

/-- Nothing but zero ends a struct. -/
theorem eq_stop_of_tagOfNibble {nibble : UInt8} (h : tagOfNibble nibble = some .stop) : nibble = stopNibble := by
  unfold tagOfNibble at h
  split at h
  · cases h
  · have hfound := List.find?_some h
    exact (Option.some.inj (beq_iff_eq.mp hfound)).symm

inductive Headed (codec codec' : Compact) : FieldHeader → Compact → Compact → Prop where
  | stop : Headed codec codec' .stop codec codec'
  | field {tag : Tag} {id : Int16} (nibble : UInt8) (htag : tag ≠ .stop) :
    Headed codec codec' ⟨tag, id⟩ (codec.afterHead tag nibble id) (codec'.afterHead tag nibble id)

private theorem draws_fieldRest (byte : UInt8) (id : Int16) (hstop : byte &&& 0x0f ≠ stopNibble) :
    Draws codec codec' (readFieldRest byte id) 0 (Headed codec codec') := by
  cases htag : tagOfNibble (byte &&& 0x0f) with
  | none =>
    simp only [readFieldRest, decodeNibble, htag]
    exact .throw _
  | some tag =>
    have hhead := @Headed.field codec codec' tag id (byte &&& 0x0f)
      fun hend => hstop (eq_stop_of_tagOfNibble (hend ▸ htag))
    simp only [readFieldRest, decodeNibble, htag, pure_bind]
    by_cases hbool : tag = .bool
    · simp only [afterHead, hbool, if_true] at hhead ⊢
      exact draws_codec (draws_codec (.pure hhead))
    · simp only [afterHead, hbool, if_false] at hhead ⊢
      exact draws_codec (.pure hhead)

theorem draws_fieldBegin (hlast : codec.lastField = codec'.lastField) :
    Draws codec codec' readFieldBegin 1 (Headed codec codec') := by
  refine Endpoint.takes_byte.bind fun byte => .ite (fun _ => .pure .stop) fun hstop => ?_
  refine .ite (fun _ => takes_i16.free.bind fun id => draws_fieldRest byte id hstop) fun _ => .get (fun _ _ => ?_)
    fun _ => draws_fieldRest byte _ hstop
  rw [hlast]

theorem takes_mapBegin (hlimits : codec.limits = codec'.limits) : Takes codec codec' readMapBegin 1 := by
  refine .get (fun _ _ => by rw [hlimits]) fun _ => (takes_size _).bind fun size => ?_
  refine .ite (fun _ => Takes.pure _) fun _ => ?_
  exact Endpoint.takes_byte.free.bind fun tags => (takes_decodeNibble _).bind fun key => (takes_decodeNibble _).map _

theorem takes_listBegin (hlimits : codec.limits = codec'.limits) : Takes codec codec' readListBegin 1 := by
  refine Endpoint.takes_byte.bind fun byte => (takes_decodeNibble _).bind fun elem =>
    .get (fun _ _ => by rw [hlimits]) fun _ => ?_
  refine .ite (fun _ => ((takes_size _).map _).free) fun _ => (takes_checkLimit _ _).bind fun _ => Takes.pure _

private theorem takes_messageRest (hlimits : codec.limits = codec'.limits) (second : UInt8) :
    Takes codec codec' (readMessageRest second) 0 :=
  (takes_decodeKind _).bind fun _ => takes_varint32.free.bind fun _ => ((takes_text hlimits).map _).free

/-- The version of a message is kept, whatever the version was before. -/
theorem draws_messageBegin (hlimits : codec.limits = codec'.limits) :
    Draws codec codec' readMessageBegin 2 fun _ final final' =>
      ∃ version, final = { codec with version } ∧ final' = { codec' with version } := by
  refine @Draws.bind _ _ _ codec codec' _ 1 1 _ _ _ Endpoint.takes_byte fun first final final' h => ?_
  rw [h.1, h.2]
  refine .ite (fun _ => .throw _) fun _ => Endpoint.takes_byte.bind fun second => ?_
  split
  · exact .throw _
  · next version _ =>
    have hrest := @takes_messageRest { codec with version } { codec' with version } hlimits second
    exact draws_codec (hrest.mono (Nat.le_refl 0) fun _ _ _ h => ⟨version, h⟩)

end Compact
end RpcWire
