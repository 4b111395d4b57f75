import RpcWire.Proofs.Layout
import RpcWire.Proofs.Parts
import RpcWire.Proofs.Steps

/-! What writers write: they succeed exactly when a value can be laid out, and then add its layout to what is
pending. -/
namespace RpcWire

def Channel.append (channel : Channel) (bytes : Bytes) : Channel :=
  { channel with pending := channel.pending ++ bytes }

theorem Channel.append_append (channel : Channel) (first second : Bytes) :
    (channel.append first).append second = channel.append (first ++ second) := by
  simp [append]

/-- The action succeeds exactly under the condition, on every channel; it then adds the octets to what is
pending and touches nothing else. -/
def Writes {κ α : Type} (codec : κ) (act : CodecM κ α) (bytes : Bytes) (result : α) (codec' : κ)
    (cond : Prop) : Prop :=
  ∀ channel, OkIff act ⟨codec, channel⟩ cond result ⟨codec', channel.append bytes⟩

namespace Writes
variable {κ α β : Type} {codec codec' codec'' : κ} {act : CodecM κ α} {bytes more : Bytes} {result : α}
  {cond cond' : Prop}

theorem pure (codec : κ) (result : α) : Writes codec (pure result) [] result codec True :=
  fun channel => .always (by simp [Pure.pure, EStateM.pure, Channel.append])

theorem bind {next : α → CodecM κ β} {final : β} (h : Writes codec act bytes result codec' cond)
    (h' : Writes codec' (next result) more final codec'' cond') :
    Writes codec (act >>= next) (bytes ++ more) final codec'' (cond ∧ cond') := by
  intro channel
  rw [← Channel.append_append]
  exact (h channel).bind (h' (channel.append bytes))

theorem congr {bytes' : Bytes} (h : Writes codec act bytes result codec' cond) (hb : bytes = bytes')
    (hc : cond ↔ cond') : Writes codec act bytes' result codec' cond' :=
  hb ▸ fun channel => (h channel).congr hc

theorem seq {act : CodecM κ Unit} {act' : CodecM κ β} {final : β} (h : Writes codec act bytes () codec' cond)
    (h' : Writes codec' act' more final codec'' cond') :
    Writes codec (do act; act') (bytes ++ more) final codec'' (cond ∧ cond') :=
  h.bind h'

theorem then_always {next : α → CodecM κ β} {final : β} (h : Writes codec act bytes result codec' True)
    (h' : Writes codec' (next result) more final codec'' cond) :
    Writes codec (act >>= next) (bytes ++ more) final codec'' cond :=
  (h.bind h').congr rfl (by rw [true_and])

/-- An action that always succeeds. -/
theorem always (h : ∀ channel, act ⟨codec, channel⟩ = .ok result ⟨codec', channel.append bytes⟩) :
    Writes codec act bytes result codec' True :=
  fun channel => .always (h channel)

/-- The condition of an action that always succeeds holds. -/
theorem cond_of_always {bytes' : Bytes} (h : Writes codec act bytes result codec' True)
    (h' : Writes codec act bytes' result codec'' cond) : cond :=
  (h' ⟨.raw {}, [], [], none⟩).2 _ _ ((h _).1 trivial)

/-- Looking at the codec writes nothing. -/
theorem get {next : Endpoint κ → CodecM κ β} {final : β}
    (h : ∀ channel, Writes codec (next ⟨codec, channel⟩) bytes final codec' cond) :
    Writes codec (get >>= next) bytes final codec' cond :=
  fun channel => h channel channel

end Writes

namespace Endpoint
variable {κ : Type}

theorem writes_bytes (codec : κ) (bytes : Bytes) : Writes codec (write bytes) bytes () codec True :=
  Writes.always fun _ => rfl

theorem writes_byte (codec : κ) (byte : UInt8) : Writes codec (writeByte byte) [byte] () codec True :=
  Writes.always fun _ => rfl

private theorem writes_checkWritable (codec : κ) (size : Nat) :
    Writes codec (checkWritable size) [] () codec (size ≤ maxSize) := by
  intro channel
  by_cases h : maxSize < size
  · refine ⟨fun hle => absurd h (Nat.not_lt.mpr hle), fun value after hr => ?_⟩
    rw [checkWritable, if_pos h] at hr
    cases hr
  · refine ⟨fun _ => ?_, fun _ _ _ => Nat.le_of_not_lt h⟩
    rw [checkWritable, if_neg h]
    exact (Writes.pure codec () channel).1 trivial

end Endpoint

namespace Binary
open Endpoint
variable (codec : Binary)

private theorem writes_size (size : Nat) :
    Writes codec (writeSize size) (Format.binary.size size) () codec (size ≤ maxSize) :=
  ((writes_checkWritable codec size).bind (writes_bytes codec _)).congr rfl (by simp)

theorem writes_run (bytes : Bytes) :
    Writes codec (writeBytes bytes) (Format.binary.run bytes) () codec (bytes.length ≤ maxSize) :=
  ((writes_size codec _).bind (writes_bytes codec _)).congr rfl (by simp)

theorem writes_fieldBegin (tag : Tag) (id : Int16) :
    Writes codec (writeFieldBegin ⟨tag, id⟩) (tag.toByte :: Bytes.bigEndian 2 id.toUInt16.toNat) () codec True :=
  (writes_byte codec _).then_always (writes_bytes codec _)

theorem writes_mapBegin (header : MapHeader) :
    Writes codec (writeMapBegin header) (Format.binary.mapHead header) () codec (header.size ≤ maxSize) :=
  (writes_byte codec _).then_always ((writes_byte codec _).then_always (writes_size codec _))

theorem writes_listBegin (header : ListHeader) :
    Writes codec (writeListBegin header) (Format.binary.listHead header) () codec (header.size ≤ maxSize) :=
  (writes_byte codec _).then_always (writes_size codec _)

theorem writes_messageBegin (header : MessageHeader) :
    Writes codec (writeMessageBegin header) (Format.binary.message header) () codec
      ((Utf8.encode header.name).length ≤ maxSize) :=
  (writes_bytes codec _).then_always (((writes_run codec _).bind (writes_bytes codec _)).congr rfl (by simp))

end Binary

namespace Compact
open Endpoint
variable (codec : Compact)

private theorem writes_tag (tag : Tag) :
    Writes codec (encodeTag tag) [] (Format.nibble tag) codec (tag ≠ .void) := by
  intro channel
  cases tag with
  | void =>
    refine ⟨fun h => absurd rfl h, fun value after hr => ?_⟩
    cases hr
  | _ => exact ⟨fun _ => (Writes.pure codec _ channel).1 trivial, fun _ _ _ => by decide⟩

private theorem writes_size (size : Nat) :
    Writes codec (writeSize size) (Varint.encode size) () codec (size ≤ maxSize) :=
  ((writes_checkWritable codec size).bind (writes_bytes codec _)).congr rfl (by simp)

theorem writes_run (bytes : Bytes) :
    Writes codec (writeBytes bytes) ((Format.compact codec.version).run bytes) () codec
      (bytes.length ≤ maxSize) :=
  ((writes_size codec _).bind (writes_bytes codec _)).congr rfl (by simp)

theorem writes_onCodec (f : Compact → Compact) : Writes codec (onCodec f) [] () (f codec) True :=
  Writes.always fun channel => by
    simp [onCodec, modify_ok, Channel.append]

theorem writes_double (bits : UInt64) :
    Writes codec (writeDouble bits) ((Format.compact codec.version).double bits) () codec True := by
  apply Writes.get
  intro channel
  cases hv : codec.version <;> exact writes_bytes codec _

/-- The head of a field depends on the field before, and is the field before for the next one. -/
theorem writes_fieldHead (nibble : UInt8) (id : Int16) :
    Writes codec (writeFieldHead nibble id) (Format.compactFieldHead codec.lastField nibble id) ()
      { codec with lastField := id } True := by
  apply Writes.get
  intro channel
  simp only [Format.compactFieldHead]
  split
  · exact (writes_byte codec _).then_always (writes_onCodec codec _)
  · refine ((writes_byte codec nibble).then_always
      ((writes_bytes codec _).then_always (writes_onCodec codec _))).congr ?_ Iff.rfl
    rw [List.append_nil, List.singleton_append]

theorem writes_fieldBegin_bool (id : Int16) :
    Writes codec (writeFieldBegin ⟨.bool, id⟩) [] () { codec with pendingWrite := some id } True :=
  writes_onCodec codec fun codec => { codec with pendingWrite := some id }

/-- The head of a truth value is not written before the value is known. -/
theorem writes_pendingBool (value : Bool) {id : Int16} (h : codec.pendingWrite = some id) :
    Writes codec (writeBool value)
      (Format.compactFieldHead codec.lastField (if value then trueNibble else falseNibble) id) ()
      { codec with lastField := id, pendingWrite := none } True := by
  apply Writes.get
  intro channel
  simp only [h]
  exact (writes_onCodec codec _).then_always (writes_fieldHead _ _ id)

theorem writes_fieldBegin {tag : Tag} (h : tag ≠ .bool) (id : Int16) :
    Writes codec (writeFieldBegin ⟨tag, id⟩)
      (Format.compactFieldHead codec.lastField (Format.nibble tag) id) () { codec with lastField := id }
      (tag ≠ .void) := by
  rw [writeFieldBegin, if_neg h]
  exact ((writes_tag codec tag).bind (writes_fieldHead codec _ id)).congr rfl (by simp)

theorem writes_bool (value : Bool) (h : codec.pendingWrite = none) :
    Writes codec (writeBool value) ((Format.compact codec.version).bool value) () codec True := by
  apply Writes.get
  intro channel
  simp only [h]
  exact writes_byte codec _

theorem writes_mapBegin (header : MapHeader) :
    Writes codec (writeMapBegin header) ((Format.compact codec.version).mapHead header) () codec
      (header.size = 0 ∨ header.key ≠ .void ∧ header.value ≠ .void ∧ header.size ≤ maxSize) := by
  rw [writeMapBegin, Format.mapHead]
  split
  · next h => exact (writes_byte codec 0).congr rfl (by simp [h])
  · next h =>
    exact ((writes_tag codec _).bind ((writes_tag codec _).bind
      ((writes_size codec _).bind (writes_byte codec _)))).congr rfl (by simp [h])

theorem writes_listBegin (header : ListHeader) :
    Writes codec (writeListBegin header) ((Format.compact codec.version).listHead header) () codec
      (header.elem ≠ .void ∧ header.size ≤ maxSize) := by
  have htag := writes_tag codec header.elem
  rw [writeListBegin, Format.listHead]
  split
  · next h =>
    have hle : header.size ≤ maxSize := Nat.le_trans h (by decide)
    rw [show (header.elem ≠ .void ∧ header.size ≤ maxSize) = (header.elem ≠ .void ∧ True) by rw [eq_true hle]]
    exact htag.bind (writes_byte codec _)
  · exact htag.bind ((writes_byte codec _).then_always (writes_size codec _))

theorem writes_messageBegin (header : MessageHeader) :
    Writes codec (writeMessageBegin header) ((Format.compact codec.version).message header) () codec
      ((Utf8.encode header.name).length ≤ maxSize) := by
  refine (writes_byte codec mark).then_always (Writes.get fun channel => ?_)
  exact (writes_byte codec _).then_always ((writes_bytes codec _).then_always (writes_run codec _))

theorem writes_structBegin :
    Writes codec structBegin [] ()
      { codec with lastField := 0, outerFields := codec.lastField :: codec.outerFields } True :=
  writes_onCodec codec _

theorem writes_structEnd {last : Int16} {outer : List Int16} (h : codec.outerFields = last :: outer) :
    Writes codec structEnd [] () { codec with lastField := last, outerFields := outer } True := by
  apply Writes.get
  intro channel
  simp only [h]
  exact writes_onCodec codec _

end Compact
end RpcWire
