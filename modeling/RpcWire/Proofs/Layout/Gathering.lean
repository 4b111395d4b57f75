import RpcWire.Proofs.Layout.ValueWriting

/-! Writers only gather octets for the next flush, and what they gather does not depend on the transport, whether
they succeed or fail. -/
namespace RpcWire

/-- From a codec, the action ends alike on all channels: it adds the same octets to what is pending, and neither
sees nor touches anything else of the channel. -/
def GathersFrom {κ α : Type} (codec : κ) (act : CodecM κ α) : Prop :=
  ∃ codec' bytes,
    (∃ result, ∀ channel, act ⟨codec, channel⟩ = .ok result ⟨codec', channel.append bytes⟩) ∨
      ∃ err, ∀ channel, act ⟨codec, channel⟩ = .error err ⟨codec', channel.append bytes⟩

def Gathers {κ α : Type} (act : CodecM κ α) : Prop :=
  ∀ codec, GathersFrom codec act

theorem Writes.gathersFrom {κ α : Type} {codec codec' : κ} {act : CodecM κ α} {bytes : Bytes} {result : α}
    (h : Writes codec act bytes result codec' True) : GathersFrom codec act :=
  ⟨codec', bytes, Or.inl ⟨result, fun channel => (h channel).1 trivial⟩⟩

namespace GathersFrom
variable {κ α β : Type} {codec : κ}

private theorem throw (err : WireError) : GathersFrom codec (throw err : CodecM κ α) :=
  ⟨codec, [], Or.inr ⟨err, fun channel => by simp [Channel.append, throw_error]⟩⟩

private theorem bind {act : CodecM κ α} {next : α → CodecM κ β} (h : GathersFrom codec act)
    (hnext : ∀ result, Gathers (next result)) : GathersFrom codec (act >>= next) := by
  obtain ⟨codec', bytes, ⟨result, hok⟩ | ⟨err, herr⟩⟩ := h
  · obtain ⟨codec'', more, hmore⟩ := hnext result codec'
    refine ⟨codec'', bytes ++ more, ?_⟩
    rcases hmore with ⟨final, hfinal⟩ | ⟨err, herr⟩
    · exact Or.inl ⟨final, fun channel => by rw [bind_of_ok (hok channel), hfinal, Channel.append_append]⟩
    · exact Or.inr ⟨err, fun channel => by rw [bind_of_ok (hok channel), herr, Channel.append_append]⟩
  · exact ⟨codec', bytes, Or.inr ⟨err, fun channel => bind_of_error (herr channel)⟩⟩

/-- Looking at the codec alone. -/
private theorem get {next : Endpoint κ → CodecM κ α} (act : CodecM κ α)
    (hnext : ∀ channel, next ⟨codec, channel⟩ = act)
    (h : GathersFrom codec act) : GathersFrom codec (get >>= next) := by
  have hsame (channel : Channel) : (MonadState.get >>= next) ⟨codec, channel⟩ = act ⟨codec, channel⟩ := by
    rw [← hnext channel]
    rfl
  simpa only [GathersFrom, hsame] using h

end GathersFrom

namespace Gathers
variable {κ α β : Type}

theorem pure (result : α) : Gathers (pure result : CodecM κ α) :=
  fun codec => (Writes.pure codec result).gathersFrom

theorem throw (err : WireError) : Gathers (throw err : CodecM κ α) :=
  fun _ => .throw err

theorem bind {act : CodecM κ α} {next : α → CodecM κ β} (h : Gathers act) (hnext : ∀ result, Gathers (next result)) :
    Gathers (act >>= next) :=
  fun codec => (h codec).bind hnext

theorem seq {act : CodecM κ Unit} {act' : CodecM κ β} (h : Gathers act) (h' : Gathers act') :
    Gathers (do act; act') :=
  h.bind fun _ => h'

end Gathers

namespace Endpoint
variable {κ : Type}

theorem gathers_bytes (bytes : Bytes) : Gathers (write bytes : CodecM κ Unit) :=
  fun codec => (writes_bytes codec bytes).gathersFrom

theorem gathers_byte (byte : UInt8) : Gathers (writeByte byte : CodecM κ Unit) :=
  fun codec => (writes_byte codec byte).gathersFrom

private theorem gathers_checkWritable (size : Nat) : Gathers (checkWritable size : CodecM κ Unit) := by
  rw [checkWritable]
  split
  · exact Gathers.throw _
  · exact Gathers.pure ()

end Endpoint

namespace Binary
open Endpoint

private theorem gathers_size (size : Nat) : Gathers (writeSize size) :=
  (gathers_checkWritable size).seq (gathers_bytes _)

theorem gathers_run (bytes : Bytes) : Gathers (writeBytes bytes) :=
  (gathers_size _).seq (gathers_bytes bytes)

private theorem gathers_messageBegin (header : MessageHeader) : Gathers (writeMessageBegin header) :=
  (gathers_bytes _).seq ((gathers_run _).seq (gathers_bytes _))

theorem gathers_fieldBegin (header : FieldHeader) : Gathers (writeFieldBegin header) :=
  (gathers_byte _).seq (gathers_bytes _)

theorem gathers_mapBegin (header : MapHeader) : Gathers (writeMapBegin header) :=
  (gathers_byte _).seq ((gathers_byte _).seq (gathers_size _))

theorem gathers_listBegin (header : ListHeader) : Gathers (writeListBegin header) :=
  (gathers_byte _).seq (gathers_size _)

end Binary

namespace Compact
open Endpoint

private theorem gathers_tag (tag : Tag) : Gathers (encodeTag tag) := by
  rw [encodeTag]
  split
  · exact Gathers.throw _
  · exact Gathers.pure _

private theorem gathers_size (size : Nat) : Gathers (writeSize size) :=
  (gathers_checkWritable size).seq (gathers_bytes _)

theorem gathers_run (bytes : Bytes) : Gathers (writeBytes bytes) :=
  (gathers_size _).seq (gathers_bytes bytes)

private theorem gathers_messageBegin (header : MessageHeader) : Gathers (writeMessageBegin header) := by
  apply (gathers_byte mark).seq
  intro codec
  refine GathersFrom.get (do
    Endpoint.writeByte (codec.version.toByte ||| header.kind.toByte <<< 5)
    writeVarint header.seqId.toUInt32.toNat
    writeText header.name) (fun _ => rfl) ?_
  exact ((gathers_byte _).seq ((gathers_bytes _).seq (gathers_run _))) codec

theorem gathers_onCodec (f : Compact → Compact) : Gathers (onCodec f) :=
  fun codec => (codec.writes_onCodec f).gathersFrom

theorem gathers_structEnd : Gathers structEnd := by
  intro codec
  cases houter : codec.outerFields with
  | nil => exact GathersFrom.get _ (fun _ => by rw [houter]) (.throw (.invalidData .unmatchedStructEnd))
  | cons last outer => exact (codec.writes_structEnd houter).gathersFrom

private theorem gathers_fieldHead (nibble : UInt8) (id : Int16) : Gathers (writeFieldHead nibble id) :=
  fun codec => (codec.writes_fieldHead nibble id).gathersFrom

theorem gathers_fieldBegin (header : FieldHeader) : Gathers (writeFieldBegin header) := by
  rw [writeFieldBegin]
  split
  · exact gathers_onCodec _
  · exact (gathers_tag _).bind fun nibble => gathers_fieldHead nibble _

theorem gathers_bool (value : Bool) : Gathers (writeBool value) := by
  intro codec
  cases hpending : codec.pendingWrite with
  | none => exact (codec.writes_bool value hpending).gathersFrom
  | some id => exact (codec.writes_pendingBool value hpending).gathersFrom

theorem gathers_double (bits : UInt64) : Gathers (writeDouble bits) :=
  fun codec => (codec.writes_double bits).gathersFrom

theorem gathers_mapBegin (header : MapHeader) : Gathers (writeMapBegin header) := by
  rw [writeMapBegin]
  split
  · exact gathers_byte 0
  · exact (gathers_tag _).bind fun _ => (gathers_tag _).bind fun _ => (gathers_size _).seq (gathers_byte _)

theorem gathers_listBegin (header : ListHeader) : Gathers (writeListBegin header) := by
  apply (gathers_tag header.elem).bind
  intro nibble
  split
  · exact gathers_byte _
  · exact (gathers_byte _).seq (gathers_size _)

end Compact

namespace WireM
open Endpoint

/-- An action of either codec gathers if both forms of it do. -/
theorem gathers_dispatch {α : Type} {binary : Binary.M α} {compact : Compact.M α} (hb : Gathers binary)
    (hc : Gathers compact) : Gathers (dispatch binary compact) := by
  intro codec
  cases codec with
  | binary codec =>
    obtain ⟨codec', bytes, ⟨result, hok⟩ | ⟨err, herr⟩⟩ := hb codec
    · exact ⟨.binary codec', bytes, Or.inl ⟨result, fun channel => by simp only [dispatch, onPart, hok]⟩⟩
    · exact ⟨.binary codec', bytes, Or.inr ⟨err, fun channel => by simp only [dispatch, onPart, herr]⟩⟩
  | compact codec =>
    obtain ⟨codec', bytes, ⟨result, hok⟩ | ⟨err, herr⟩⟩ := hc codec
    · exact ⟨.compact codec', bytes, Or.inl ⟨result, fun channel => by simp only [dispatch, onPart, hok]⟩⟩
    · exact ⟨.compact codec', bytes, Or.inr ⟨err, fun channel => by simp only [dispatch, onPart, herr]⟩⟩

theorem gathers_messageBegin (header : MessageHeader) : Gathers (writeMessageBegin header) :=
  gathers_dispatch (Binary.gathers_messageBegin header) (Compact.gathers_messageBegin header)

private theorem gathers_structBegin : Gathers writeStructBegin :=
  gathers_dispatch (.pure ()) (Compact.gathers_onCodec _)

private theorem gathers_structEnd : Gathers writeStructEnd :=
  gathers_dispatch (.pure ()) Compact.gathers_structEnd

private theorem gathers_fieldStop : Gathers writeFieldStop :=
  gathers_dispatch (gathers_byte _) (gathers_byte _)

private theorem gathers_fieldBegin (header : FieldHeader) : Gathers (writeFieldBegin header) :=
  gathers_dispatch (Binary.gathers_fieldBegin header) (Compact.gathers_fieldBegin header)

private theorem gathers_mapBegin (header : MapHeader) : Gathers (writeMapBegin header) :=
  gathers_dispatch (Binary.gathers_mapBegin header) (Compact.gathers_mapBegin header)

private theorem gathers_listBegin (header : ListHeader) : Gathers (writeListBegin header) :=
  gathers_dispatch (Binary.gathers_listBegin header) (Compact.gathers_listBegin header)

end WireM

namespace Value
open Endpoint WireM

mutual

/-- A value is written without regard to the transport, also where it cannot be written. -/
theorem gathers_write : ∀ value : Value, Gathers value.write
  | .bool value => by
    rw [write]
    exact gathers_dispatch (gathers_byte _) (Compact.gathers_bool value)
  | .byte _ => by
    rw [write]
    exact gathers_dispatch (gathers_byte _) (gathers_byte _)
  | .i16 _ => by
    rw [write]
    exact gathers_dispatch (gathers_bytes _) (gathers_bytes _)
  | .i32 _ => by
    rw [write]
    exact gathers_dispatch (gathers_bytes _) (gathers_bytes _)
  | .i64 _ => by
    rw [write]
    exact gathers_dispatch (gathers_bytes _) (gathers_bytes _)
  | .double bits => by
    rw [write]
    exact gathers_dispatch (gathers_bytes _) (Compact.gathers_double bits)
  | .float _ => by
    rw [write]
    exact gathers_dispatch (gathers_bytes _) (gathers_bytes _)
  | .binary bytes => by
    rw [write]
    exact gathers_dispatch (Binary.gathers_run bytes) (Compact.gathers_run bytes)
  | .struct fields => by
    rw [write]
    exact gathers_structBegin.seq ((gathers_writeFields fields).seq (gathers_fieldStop.seq gathers_structEnd))
  | .map key value items => by
    rw [write]
    exact (gathers_mapBegin _).seq (gathers_writeEntries items)
  | .set elem items => by
    rw [write]
    exact (gathers_listBegin _).seq (gathers_writeItems items)
  | .list elem items => by
    rw [write]
    exact (gathers_listBegin _).seq (gathers_writeItems items)

theorem gathers_writeFields : ∀ fields : List (Int16 × Value), Gathers (writeFields fields)
  | [] => by
    rw [writeFields]
    exact .pure ()
  | (id, value) :: rest => by
    rw [writeFields]
    exact (gathers_fieldBegin _).seq ((gathers_write value).seq (gathers_writeFields rest))

theorem gathers_writeEntries : ∀ items : List (Value × Value), Gathers (writeEntries items)
  | [] => by
    rw [writeEntries]
    exact .pure ()
  | (key, value) :: rest => by
    rw [writeEntries]
    exact (gathers_write key).seq ((gathers_write value).seq (gathers_writeEntries rest))

theorem gathers_writeItems : ∀ items : List Value, Gathers (writeItems items)
  | [] => by
    rw [writeItems]
    exact .pure ()
  | item :: rest => by
    rw [writeItems]
    exact (gathers_write item).seq (gathers_writeItems rest)

end

end Value
end RpcWire
