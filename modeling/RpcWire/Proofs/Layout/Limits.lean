import RpcWire.Proofs.Layout
import RpcWire.Proofs.Tracking

/-! Writers leave the encoding and the limits of a codec as they are: limits bound what is read. -/
namespace RpcWire

namespace Endpoint

def OfCodec {κ : Type} (p : κ → Prop) (endpoint : Endpoint κ) : Prop := p endpoint.codec

variable {κ : Type} {p : κ → Prop}

/-- What holds of a codec holds whatever is done to the channel. -/
theorem maintains_onChannel {α : Type} (act : ChannelM α) :
    Maintains (OfCodec p) (onChannel act) := by
  intro endpoint h
  simp only [onChannel, onPart]
  cases act endpoint.channel <;> exact h

theorem maintains_bytes (bytes : Bytes) : Maintains (OfCodec p) (write bytes) :=
  maintains_onChannel _

theorem maintains_byte (byte : UInt8) : Maintains (OfCodec p) (writeByte byte) :=
  maintains_onChannel _

private theorem maintains_checkWritable (size : Nat) :
    Maintains (OfCodec p) (checkWritable size) :=
  .ite (.throw _) (.pure _)

end Endpoint

namespace Binary
open Endpoint
variable {p : Binary → Prop}

private theorem maintains_size (size : Nat) : Maintains (OfCodec p) (writeSize size) :=
  (maintains_checkWritable size).bind fun _ => maintains_bytes _

theorem maintains_run (bytes : Bytes) : Maintains (OfCodec p) (writeBytes bytes) :=
  (maintains_size _).bind fun _ => maintains_bytes bytes

theorem maintains_messageBegin (header : MessageHeader) : Maintains (OfCodec p) (writeMessageBegin header) :=
  (maintains_bytes _).bind fun _ => (maintains_run _).bind fun _ => maintains_bytes _

theorem maintains_fieldBegin (header : FieldHeader) : Maintains (OfCodec p) (writeFieldBegin header) :=
  (maintains_byte _).bind fun _ => maintains_bytes _

theorem maintains_mapBegin (header : MapHeader) : Maintains (OfCodec p) (writeMapBegin header) :=
  (maintains_byte _).bind fun _ => (maintains_byte _).bind fun _ => maintains_size _

theorem maintains_listBegin (header : ListHeader) : Maintains (OfCodec p) (writeListBegin header) :=
  (maintains_byte _).bind fun _ => maintains_size _

end Binary

namespace Compact
open Endpoint
variable {limits : Limits}

private theorem maintains_onCodec {f : Compact → Compact} (hf : ∀ codec, (f codec).limits = codec.limits) :
    Maintains (OfCodec (·.limits = limits)) (onCodec f) :=
  .modify fun endpoint h => (hf endpoint.codec).trans h

private theorem maintains_tag (tag : Tag) : Maintains (OfCodec (·.limits = limits)) (encodeTag tag) := by
  rw [encodeTag]
  split
  · exact .throw _
  · exact .pure _

private theorem maintains_size (size : Nat) : Maintains (OfCodec (·.limits = limits)) (writeSize size) :=
  (maintains_checkWritable size).bind fun _ => maintains_bytes _

theorem maintains_run (bytes : Bytes) : Maintains (OfCodec (·.limits = limits)) (writeBytes bytes) :=
  (maintains_size _).bind fun _ => maintains_bytes bytes

theorem maintains_messageBegin (header : MessageHeader) :
    Maintains (OfCodec (·.limits = limits)) (writeMessageBegin header) :=
  (maintains_byte mark).bind fun _ => .get fun _ _ => (maintains_byte _).bind fun _ =>
    (maintains_bytes _).bind fun _ => maintains_run _

theorem maintains_structBegin : Maintains (OfCodec (·.limits = limits)) structBegin :=
  maintains_onCodec fun _ => rfl

theorem maintains_structEnd : Maintains (OfCodec (·.limits = limits)) structEnd := by
  refine .get fun endpoint _ => ?_
  split
  · exact .throw _
  · exact maintains_onCodec fun _ => rfl

private theorem maintains_fieldHead (nibble : UInt8) (id : Int16) :
    Maintains (OfCodec (·.limits = limits)) (writeFieldHead nibble id) := by
  refine .get fun endpoint _ => .ite ?_ ?_
  · exact (maintains_byte _).bind fun _ => maintains_onCodec fun _ => rfl
  · exact (maintains_byte _).bind fun _ => (maintains_bytes _).bind fun _ => maintains_onCodec fun _ => rfl

theorem maintains_fieldBegin (header : FieldHeader) :
    Maintains (OfCodec (·.limits = limits)) (writeFieldBegin header) :=
  .ite (maintains_onCodec fun _ => rfl) ((maintains_tag _).bind fun nibble => maintains_fieldHead nibble _)

theorem maintains_bool (value : Bool) : Maintains (OfCodec (·.limits = limits)) (writeBool value) := by
  refine .get fun endpoint _ => ?_
  split
  · refine Maintains.bind (maintains_onCodec ?_) fun _ => maintains_fieldHead _ _
    exact fun _ => rfl
  · exact maintains_byte _

theorem maintains_double (bits : UInt64) : Maintains (OfCodec (·.limits = limits)) (writeDouble bits) := by
  refine .get fun endpoint _ => ?_
  split <;> exact maintains_bytes _

theorem maintains_mapBegin (header : MapHeader) :
    Maintains (OfCodec (·.limits = limits)) (writeMapBegin header) :=
  .ite (maintains_byte 0) ((maintains_tag _).bind fun _ => (maintains_tag _).bind fun _ =>
    (maintains_size _).bind fun _ => maintains_byte _)

theorem maintains_listBegin (header : ListHeader) :
    Maintains (OfCodec (·.limits = limits)) (writeListBegin header) :=
  (maintains_tag _).bind fun _ => .ite (maintains_byte _) ((maintains_byte _).bind fun _ => maintains_size _)

end Compact

namespace WireM
open Endpoint

def KeepsKind (act : WireM Unit) : Prop :=
  ∀ encoding limits, Maintains (OfCodec fun codec => codec.encoding = encoding ∧ codec.limits = limits) act

theorem keepsKind_dispatch {binary : Binary.M Unit} {compact : Compact.M Unit}
    (hbinary : ∀ p : Binary → Prop, Maintains (OfCodec p) binary)
    (hcompact : ∀ limits, Maintains (OfCodec (·.limits = limits)) compact) :
    KeepsKind (dispatch binary compact) := by
  rintro _ limits ⟨codec, channel⟩ ⟨rfl, h⟩
  cases codec with
  | binary codec =>
    have hact := hbinary (·.limits = limits) (show OfCodec _ ⟨codec, channel⟩ from h)
    simp only [dispatch, onPart]
    cases hr : binary ⟨codec, channel⟩ <;> rw [hr] at hact <;> exact ⟨rfl, hact⟩
  | compact codec =>
    have hact := hcompact limits (show OfCodec _ ⟨codec, channel⟩ from h)
    simp only [dispatch, onPart]
    cases hr : compact ⟨codec, channel⟩ <;> rw [hr] at hact <;> exact ⟨rfl, hact⟩

theorem keepsKind_pure : KeepsKind (pure ()) := fun _ _ => .pure ()

end WireM
end RpcWire
