import RpcWire.Proofs.Boundaries

/-! Neither reading nor sending makes up a fault. The one fault that reading can fail with is the fault that a message
carries. -/
namespace RpcWire

abbrev Faultless {σ α : Type} (act : EStateM WireError σ α) : Prop := Fails WireError.Plain act

namespace Fails
variable {ε σ α β : Type} {p : ε → Prop}

theorem seq {act : EStateM ε σ Unit} {next : EStateM ε σ β} (h : Fails p act) (hnext : Fails p next) :
    Fails p (do act; next) :=
  h.bind fun _ => hnext

/-- What is made of a result cannot fail. -/
theorem map {act : EStateM ε σ α} (f : α → β) (h : Fails p act) : Fails p (do return f (← act)) :=
  h.bind fun value => .pure (f value)

end Fails

/-! ## Sending -/

private theorem Stream.faultless_write (bytes : Bytes) : Faultless (write bytes) := by
  intro stream err after h
  unfold write at h
  split at h
  · cases h
  · split at h
    · cases h
    · cases h
      rintro _ ⟨⟩

private theorem Framed.faultless_write (bytes : Bytes) : Faultless (write bytes) := by
  intro layer err after h
  simp only [write] at h
  split at h
  · cases h
    rintro _ ⟨⟩
  · cases h

private theorem Framed.faultless_flush : Faultless flush :=
  .get fun _ => .ite (.pure ()) ((Fails.modify _).bind fun _ => .onPart (Stream.faultless_write _))

private theorem Enveloped.faultless_flush : Faultless flush := by
  intro layer err after h
  simp only [flush] at h
  split at h
  · cases h
  · split at h
    · cases h
      rintro _ ⟨⟩
    · split at h
      · cases h
        rintro _ ⟨⟩
      · split at h
        · next hwrite =>
          cases h
          exact Stream.faultless_write _ hwrite
        · cases h

theorem Channel.faultless_flush : Faultless flush := by
  have hwrite (bytes : Bytes) : Faultless (Transport.write bytes) :=
    Transport.fails_dispatch (Stream.faultless_write bytes) (Framed.faultless_write bytes) (.modify _)
  have hflush : Faultless Transport.flush :=
    Transport.fails_dispatch (.pure ()) Framed.faultless_flush Enveloped.faultless_flush
  refine .get fun channel => .ite ?_ (.onPart hflush)
  exact (Fails.modify _).bind fun _ => (Fails.onPart (hwrite _)).bind fun _ => .onPart hflush

/-! ## Reading -/

namespace Endpoint
variable {κ : Type}

theorem faultless_onChannel {α : Type} {act : ChannelM α} (h : Faultless act) :
    Faultless (onChannel act : CodecM κ α) :=
  Fails.onPart h

private theorem faultless_bytes (size : Nat) : Faultless (onChannel (Channel.read size) : CodecM κ Bytes) :=
  faultless_onChannel (Channel.fails_read size)

private theorem faultless_byte : Faultless (readByte : CodecM κ UInt8) :=
  faultless_onChannel ((Channel.fails_read 1).map _)

private theorem faultless_bigEndian (width : Nat) : Faultless (readBigEndian width : CodecM κ Nat) :=
  faultless_onChannel ((Channel.fails_read width).map _)

private theorem faultless_checkLimit (size limit : Nat) : Faultless (checkLimit size limit : CodecM κ Unit) :=
  .ite (.throw nofun) (.pure ())

private theorem faultless_decodeText (bytes : Bytes) : Faultless (decodeText bytes : CodecM κ String) := by
  rw [decodeText]
  split
  · exact .throw (by rintro _ ⟨⟩)
  · exact .pure _

private theorem faultless_decodeTag (byte : UInt8) : Faultless (decodeTag byte : CodecM κ Tag) := by
  rw [decodeTag]
  split
  · exact .throw (by rintro _ ⟨⟩)
  · exact .pure _

private theorem faultless_decodeKind (byte : UInt8) : Faultless (decodeKind byte : CodecM κ MessageKind) := by
  rw [decodeKind]
  split
  · exact .throw (by rintro _ ⟨⟩)
  · exact .pure _

end Endpoint

namespace Binary
open Endpoint

private theorem faultless_i16 : Faultless readI16 := (faultless_bigEndian 2).map _

private theorem faultless_i32 : Faultless readI32 := (faultless_bigEndian 4).map _

private theorem faultless_size (limit : Nat) : Faultless (readSize limit) := by
  refine faultless_i32.bind fun size => ?_
  split
  · exact .throw (by rintro _ ⟨⟩)
  · exact (faultless_checkLimit _ limit).seq (.pure _)

private theorem faultless_run : Faultless readBytes := .get fun _ => (faultless_size _).bind faultless_bytes

private theorem faultless_text : Faultless readText := faultless_run.bind faultless_decodeText

private theorem faultless_tag : Faultless readTag := Endpoint.faultless_byte.bind faultless_decodeTag

private theorem faultless_messageBegin : Faultless readMessageBegin := by
  refine faultless_i32.bind fun word => .get fun endpoint => .ite (.ite (.throw nofun) ?_) (.ite (.throw nofun) ?_)
  · exact (faultless_decodeKind _).bind fun kind => faultless_text.bind fun name => faultless_i32.map _
  · refine (faultless_checkLimit _ _).seq ((faultless_bytes _).bind fun bytes => (faultless_decodeText _).bind
      fun name => ?_)
    exact Endpoint.faultless_byte.bind fun byte => (faultless_decodeKind _).bind fun kind => faultless_i32.map _

private theorem faultless_fieldBegin : Faultless readFieldBegin :=
  faultless_tag.bind fun _ => .ite (.pure _) (faultless_i16.map _)

private theorem faultless_mapBegin : Faultless readMapBegin :=
  faultless_tag.bind fun _ => faultless_tag.bind fun _ => .get fun _ => (faultless_size _).map _

private theorem faultless_listBegin : Faultless readListBegin :=
  faultless_tag.bind fun _ => .get fun _ => (faultless_size _).map _

end Binary

namespace Compact
open Endpoint

private theorem faultless_structEnd : Faultless structEnd := by
  refine .get fun endpoint => ?_
  split
  · exact .throw (by rintro _ ⟨⟩)
  · exact .modify _

private theorem faultless_decodeNibble (nibble : UInt8) : Faultless (decodeNibble nibble) := by
  rw [decodeNibble]
  split
  · exact .throw (by rintro _ ⟨⟩)
  · exact .pure _

private theorem faultless_groups (most left : Nat) : Faultless (readGroups most left) := by
  induction left with
  | zero => exact .throw nofun
  | succ left ih => exact Endpoint.faultless_byte.bind fun _ => .ite (ih.map _) (.pure _)

private theorem faultless_varint (most : Nat) :
    Faultless (readVarint most) := (faultless_groups most most).map _

private theorem faultless_varint32 : Faultless readVarint32 :=
  (faultless_varint 5).bind fun _ => .ite (.throw nofun) (.pure _)

private theorem faultless_size (limit : Nat) : Faultless (readSize limit) :=
  faultless_varint32.bind fun _ => .ite (.throw nofun) ((faultless_checkLimit _ limit).seq (.pure _))

private theorem faultless_i16 :
    Faultless readI16 := faultless_varint32.bind fun _ => .ite (.throw nofun) (.pure _)

private theorem faultless_bool : Faultless readBool := by
  refine .get fun endpoint => ?_
  split
  · exact Fails.seq (.modify _) (.pure _)
  · exact Endpoint.faultless_byte.map _

private theorem faultless_double : Faultless readDouble := by
  refine (faultless_bytes 8).bind fun bytes => .get fun endpoint => ?_
  split
  · exact .pure _
  · exact .pure _

private theorem faultless_run : Faultless readBytes := .get fun _ => (faultless_size _).bind faultless_bytes

private theorem faultless_text : Faultless readText := faultless_run.bind faultless_decodeText

private theorem faultless_messageBegin : Faultless readMessageBegin := by
  refine Endpoint.faultless_byte.bind fun first => .ite (.throw nofun) (Endpoint.faultless_byte.bind fun second => ?_)
  split
  · exact .throw (by rintro _ ⟨⟩)
  · exact Fails.seq (.modify _) ((faultless_decodeKind _).bind fun _ => faultless_varint32.bind fun _ =>
      faultless_text.map _)

private theorem faultless_fieldRest (byte : UInt8) (id : Int16) : Faultless (readFieldRest byte id) :=
  (faultless_decodeNibble _).bind fun _ => .ite ((Fails.modify _).seq ((Fails.modify _).seq (.pure _)))
    ((Fails.modify _).seq (.pure _))

private theorem faultless_fieldBegin : Faultless readFieldBegin :=
  Endpoint.faultless_byte.bind fun byte => .ite (.pure _)
    (.ite (faultless_i16.bind (faultless_fieldRest byte)) (.get fun _ => faultless_fieldRest byte _))

private theorem faultless_mapBegin : Faultless readMapBegin :=
  .get fun _ => (faultless_size _).bind fun _ => .ite (.pure _) (Endpoint.faultless_byte.bind fun _ =>
    (faultless_decodeNibble _).bind fun _ => (faultless_decodeNibble _).map _)

private theorem faultless_listBegin : Faultless readListBegin :=
  Endpoint.faultless_byte.bind fun _ => (faultless_decodeNibble _).bind fun _ => .get fun _ =>
    .ite ((faultless_size _).map _) ((faultless_checkLimit _ _).seq (.pure _))

end Compact

namespace WireM
open Endpoint

/-- An action of either codec fails with no fault if neither form of it does. -/
theorem faultless_dispatch {α : Type} {binary : Binary.M α} {compact : Compact.M α} (hb : Faultless binary)
    (hc : Faultless compact) : Faultless (dispatch binary compact) := by
  rintro ⟨codec, channel⟩ err after h
  rw [dispatch] at h
  cases codec with
  | binary codec => exact Fails.onPart hb h
  | compact codec => exact Fails.onPart hc h

theorem faultless_messageBegin : Faultless readMessageBegin :=
  faultless_dispatch Binary.faultless_messageBegin Compact.faultless_messageBegin

theorem faultless_structBegin : Faultless readStructBegin := faultless_dispatch (.pure ()) (.modify _)

theorem faultless_structEnd : Faultless readStructEnd := faultless_dispatch (.pure ()) Compact.faultless_structEnd

theorem faultless_fieldBegin : Faultless readFieldBegin :=
  faultless_dispatch Binary.faultless_fieldBegin Compact.faultless_fieldBegin

theorem faultless_mapBegin : Faultless readMapBegin :=
  faultless_dispatch Binary.faultless_mapBegin Compact.faultless_mapBegin

theorem faultless_listBegin : Faultless readListBegin :=
  faultless_dispatch Binary.faultless_listBegin Compact.faultless_listBegin

theorem faultless_bool : Faultless readBool :=
  faultless_dispatch (Endpoint.faultless_byte.map _) Compact.faultless_bool

theorem faultless_byte : Faultless readByte :=
  faultless_dispatch (Endpoint.faultless_byte.map _) (Endpoint.faultless_byte.map _)

theorem faultless_i16 : Faultless readI16 := faultless_dispatch Binary.faultless_i16 Compact.faultless_i16

theorem faultless_i32 : Faultless readI32 :=
  faultless_dispatch Binary.faultless_i32 (Compact.faultless_varint32.map _)

theorem faultless_i64 : Faultless readI64 :=
  faultless_dispatch ((faultless_bigEndian 8).map _) (((Compact.faultless_varint 10).map _).map _)

theorem faultless_double : Faultless readDouble :=
  faultless_dispatch ((faultless_bigEndian 8).map _) Compact.faultless_double

theorem faultless_float : Faultless readFloat :=
  faultless_dispatch ((faultless_bigEndian 4).map _) ((faultless_bigEndian 4).map _)

theorem faultless_run : Faultless readBytes := faultless_dispatch Binary.faultless_run Compact.faultless_run

theorem faultless_text : Faultless readText := faultless_dispatch Binary.faultless_text Compact.faultless_text

/-- Fields are read one after the other, and each step fails with no fault. -/
theorem faultless_fieldHeads {β : Type} {step : β → FieldHeader → WireM β}
    (h : ∀ acc header, Faultless (step acc header)) (most : Nat) (acc : β) :
    Faultless (foldFieldHeads step most acc) := by
  induction most generalizing acc with
  | zero => exact .throw nofun
  | succ most ih => exact faultless_fieldBegin.bind fun header => .ite (.pure _) ((h acc header).bind ih)

private theorem faultless_struct {β : Type} {init : β} {step : β → FieldHeader → WireM β}
    (h : ∀ acc header, Faultless (step acc header)) : Faultless (foldStruct init step) := by
  refine faultless_structBegin.seq (.get fun endpoint => ?_)
  exact (faultless_fieldHeads h _ init).bind fun result => faultless_structEnd.seq (.pure result)

private theorem faultless_times {act : WireM Unit} (h : Faultless act) (count : Nat) :
    Faultless (times act count) := by
  induction count with
  | zero => exact .pure ()
  | succ count ih => exact h.seq ih

private theorem faultless_collect {β : Type} {act : WireM β} (h : Faultless act) (count : Nat) :
    Faultless (collect act count) := by
  induction count with
  | zero => exact .pure []
  | succ count ih => exact h.bind fun first => ih.map _

private theorem faultless_discard {β : Type} {act : WireM β} (h : Faultless act) : Faultless (discard act) :=
  h.bind fun _ => .pure _

theorem faultless_skip (depth : Nat) (tag : Tag) : Faultless (skip depth tag) := by
  induction depth generalizing tag with
  | zero => exact .throw nofun
  | succ depth ih =>
    cases tag with
    | bool => exact faultless_discard faultless_bool
    | byte => exact faultless_discard faultless_byte
    | i16 => exact faultless_discard faultless_i16
    | i32 => exact faultless_discard faultless_i32
    | i64 => exact faultless_discard faultless_i64
    | double => exact faultless_discard faultless_double
    | float => exact faultless_discard faultless_float
    | string => exact faultless_discard faultless_run
    | struct => exact faultless_struct fun _ header => ih header.tag
    | map => exact faultless_mapBegin.bind fun header => faultless_times ((ih header.key).seq (ih header.value)) _
    | set => exact faultless_listBegin.bind fun header => faultless_times (ih header.elem) _
    | list => exact faultless_listBegin.bind fun header => faultless_times (ih header.elem) _
    | stop => exact .throw nofun
    | void => exact .throw nofun

end WireM

open WireM in
/-- Reading a fault does not fail with one. -/
theorem Fault.faultless_read (depth : Nat) : Faultless (read depth) := by
  refine faultless_struct fun fault header => ?_
  split
  · exact faultless_text.map _
  · exact faultless_i32.map _
  · exact (faultless_skip depth _).seq (.pure fault)

open WireM in
theorem Search.Response.faultless_read (depth : Nat) : Faultless (read depth) := by
  refine faultless_struct fun response header => ?_
  split
  · exact faultless_listBegin.bind fun list => (faultless_collect faultless_text _).map _
  · exact faultless_i32.map _
  · exact (faultless_skip depth _).seq (.pure response)

end RpcWire
