import RpcWire.Codec
import RpcWire.Proofs.Tracking.Endpoints

/-! Every operation of the binary codec and of the compact one does the same on channels that deliver alike. Neither
changes its settings. -/
namespace RpcWire

namespace Binary
open Endpoint
variable {pairing : Pairing} {known : Binary → Prop} {n : Nat}

/-! ## Reading -/

theorem follows_i16 : Follows pairing known n (n - 1) readI16 readI16 := (follows_bigEndian (by decide)).map _

theorem follows_i32 : Follows pairing known n (n - 1) readI32 readI32 := (follows_bigEndian (by decide)).map _

theorem follows_i64 : Follows pairing known n (n - 1) readI64 readI64 := (follows_bigEndian (by decide)).map _

theorem follows_byte : Follows pairing known n (n - 1) readByte readByte := Endpoint.follows_byte.map _

theorem follows_bool : Follows pairing known n (n - 1) readBool readBool := Endpoint.follows_byte.map _

theorem follows_double : Follows pairing known n (n - 1) readDouble readDouble :=
  (follows_bigEndian (by decide)).map _

theorem follows_float : Follows pairing known n (n - 1) readFloat readFloat := (follows_bigEndian (by decide)).map _

private theorem follows_size (limit : Nat) :
    Follows pairing known n (n - 1) (readSize limit) (readSize limit) := by
  refine follows_i32.bind fun size => ?_
  split
  · exact .throw _
  · exact (follows_checkLimit _ limit).seq (.pure _)

theorem follows_run : Follows pairing known n (n - 1) readBytes readBytes := by
  refine .get fun endpoint endpoint' hcodec _ => ?_
  rw [hcodec]
  exact (follows_size _).bind follows_bytes

theorem follows_text : Follows pairing known n (n - 1) readText readText := follows_run.bind follows_decodeText

private theorem follows_tag :
    Follows pairing known n (n - 1) readTag readTag := Endpoint.follows_byte.bind follows_decodeTag

theorem follows_messageBegin : Follows pairing known n (n - 1) readMessageBegin readMessageBegin := by
  refine follows_i32.bind fun word => .get fun endpoint endpoint' hcodec _ => ?_
  rw [hcodec]
  refine .ite (fun _ => ?_) fun _ => ?_
  · refine .ite (fun _ => .throw _) fun _ => ?_
    exact (follows_decodeKind _).bind fun kind => follows_text.plain.bind fun name => follows_i32.plain.map _
  · refine .ite (fun _ => .throw _) fun _ => ?_
    refine (follows_checkLimit _ _).seq ((follows_bytes _).bind fun bytes => (follows_decodeText _).bind fun name => ?_)
    exact Endpoint.follows_byte.plain.bind fun byte => (follows_decodeKind _).bind fun kind =>
      follows_i32.plain.map _

theorem follows_fieldBegin : Follows pairing known n (n - 1) readFieldBegin readFieldBegin :=
  follows_tag.bind fun _ => .ite (fun _ => .pure _) fun _ => follows_i16.plain.map _

theorem follows_mapBegin : Follows pairing known n (n - 1) readMapBegin readMapBegin := by
  refine follows_tag.bind fun key => follows_tag.plain.bind fun value => .get fun endpoint endpoint' hcodec _ => ?_
  rw [hcodec]
  exact (follows_size _).plain.map _

theorem follows_listBegin : Follows pairing known n (n - 1) readListBegin readListBegin := by
  refine follows_tag.bind fun elem => .get fun endpoint endpoint' hcodec _ => ?_
  rw [hcodec]
  exact (follows_size _).plain.map _

/-! ## Writing -/

variable {twoWay : TwoWay}

private theorem follows_writeSize (size : Nat) :
    Follows twoWay.toPairing known n n (writeSize size) (writeSize size) :=
  (follows_checkWritable size).seq (follows_write _)

theorem follows_writeBytes (bytes : Bytes) : Follows twoWay.toPairing known n n (writeBytes bytes) (writeBytes bytes) :=
  (follows_writeSize _).seq (follows_write bytes)

theorem follows_writeMessageBegin (header : MessageHeader) :
    Follows twoWay.toPairing known n n (writeMessageBegin header) (writeMessageBegin header) :=
  (follows_write _).seq ((follows_writeBytes _).seq (follows_write _))

theorem follows_writeFieldBegin (header : FieldHeader) :
    Follows twoWay.toPairing known n n (writeFieldBegin header) (writeFieldBegin header) :=
  (follows_writeByte _).seq (follows_write _)

theorem follows_writeMapBegin (header : MapHeader) :
    Follows twoWay.toPairing known n n (writeMapBegin header) (writeMapBegin header) :=
  (follows_writeByte _).seq ((follows_writeByte _).seq (follows_writeSize _))

theorem follows_writeListBegin (header : ListHeader) :
    Follows twoWay.toPairing known n n (writeListBegin header) (writeListBegin header) :=
  (follows_writeByte _).seq (follows_writeSize _)

end Binary

namespace Compact
open Endpoint
variable {pairing : Pairing} {limits : Limits} {n : Nat}

def Limited (limits : Limits) (codec : Compact) : Prop := codec.limits = limits

private theorem follows_onCodec {f : Compact → Compact} (hf : ∀ codec, (f codec).limits = codec.limits) :
    Follows pairing (Limited limits) n n (onCodec f) (onCodec f) := by
  refine Tracks.modify fun endpoint endpoint' h => ⟨?_, ?_, h.near⟩
  · rw [h.codec]
  · exact (hf endpoint.codec).trans h.known

theorem follows_structBegin : Follows pairing (Limited limits) n n structBegin structBegin :=
  follows_onCodec fun _ => rfl

theorem follows_structEnd : Follows pairing (Limited limits) n n structEnd structEnd := by
  refine .get fun endpoint endpoint' hcodec _ => ?_
  rw [hcodec]
  split
  · exact .throw _
  · exact follows_onCodec fun _ => rfl

private theorem follows_encodeTag (tag : Tag) :
    Follows pairing (Limited limits) n n (encodeTag tag) (encodeTag tag) := by
  rw [encodeTag]
  split
  · exact .throw _
  · exact .pure _

private theorem follows_decodeNibble (nibble : UInt8) :
    Follows pairing (Limited limits) n n (decodeNibble nibble) (decodeNibble nibble) := by
  rw [decodeNibble]
  split
  · exact .throw _
  · exact .pure _

/-! ## Reading -/

private theorem follows_groups (most left : Nat) :
    Follows pairing (Limited limits) n (n - 1) (readGroups most left) (readGroups most left) := by
  induction left generalizing n with
  | zero => exact .throw _
  | succ left ih =>
    exact Endpoint.follows_byte.bind fun first => .ite (fun _ => ih.plain.map _) fun _ => .pure _

private theorem follows_varint (most : Nat) :
    Follows pairing (Limited limits) n (n - 1) (readVarint most) (readVarint most) :=
  (follows_groups most most).map _

private theorem follows_varint32 : Follows pairing (Limited limits) n (n - 1) readVarint32 readVarint32 :=
  (follows_varint 5).bind fun _ => .ite (fun _ => .throw _) fun _ => .pure _

private theorem follows_varint64 : Follows pairing (Limited limits) n (n - 1) readVarint64 readVarint64 :=
  (follows_varint 10).map _

private theorem follows_size (limit : Nat) :
    Follows pairing (Limited limits) n (n - 1) (readSize limit) (readSize limit) :=
  follows_varint32.bind fun _ => .ite (fun _ => .throw _) fun _ => (follows_checkLimit _ limit).seq (.pure _)

theorem follows_i16 : Follows pairing (Limited limits) n (n - 1) readI16 readI16 :=
  follows_varint32.bind fun _ => .ite (fun _ => .throw _) fun _ => .pure _

theorem follows_i32 : Follows pairing (Limited limits) n (n - 1) readI32 readI32 := follows_varint32.map _

theorem follows_i64 : Follows pairing (Limited limits) n (n - 1) readI64 readI64 := follows_varint64.map _

theorem follows_byte : Follows pairing (Limited limits) n (n - 1) readByte readByte := Endpoint.follows_byte.map _

theorem follows_bool : Follows pairing (Limited limits) n n readBool readBool := by
  refine .get fun endpoint endpoint' hcodec _ => ?_
  rw [hcodec]
  split
  · exact .seq (follows_onCodec fun _ => rfl) (.pure _)
  · exact Endpoint.follows_byte.plain.map _

theorem follows_double : Follows pairing (Limited limits) n (n - 1) readDouble readDouble := by
  refine (Follows.onChannel (pairing.read n (by decide))).bind fun bytes => .get fun endpoint endpoint' hcodec _ => ?_
  rw [hcodec]
  split
  · exact .pure _
  · exact .pure _

theorem follows_float : Follows pairing (Limited limits) n (n - 1) readFloat readFloat :=
  (follows_bigEndian (by decide)).map _

theorem follows_run : Follows pairing (Limited limits) n (n - 1) readBytes readBytes := by
  refine .get fun endpoint endpoint' hcodec _ => ?_
  rw [hcodec]
  exact (follows_size _).bind follows_bytes

theorem follows_text : Follows pairing (Limited limits) n (n - 1) readText readText :=
  follows_run.bind follows_decodeText

def readMessageRest (second : UInt8) : M MessageHeader := do
  let kind ← decodeKind (second >>> 5)
  let seqId := (← readVarint32).toInt32
  let name ← readText
  return ⟨name, kind, seqId⟩

theorem follows_messageRest (second : UInt8) :
    Follows pairing (Limited limits) n n (readMessageRest second) (readMessageRest second) :=
  (follows_decodeKind _).bind fun _ => follows_varint32.plain.bind fun _ => follows_text.plain.map _

theorem follows_messageBegin : Follows pairing (Limited limits) n (n - 1) readMessageBegin readMessageBegin := by
  refine Endpoint.follows_byte.bind fun first => .ite (fun _ => .throw _) fun _ => ?_
  refine Endpoint.follows_byte.plain.bind fun second => ?_
  split
  · exact .throw _
  · exact .seq (follows_onCodec fun _ => rfl) (follows_messageRest second)

def readFieldRest (byte : UInt8) (id : Int16) : M FieldHeader := do
  let tag ← decodeNibble (byte &&& 0x0f)
  if tag = .bool then
    onCodec fun codec => { codec with pendingRead := some (byte &&& 0x0f == trueNibble) }
  onCodec fun codec => { codec with lastField := id }
  return ⟨tag, id⟩

private theorem follows_fieldRest (byte : UInt8) (id : Int16) :
    Follows pairing (Limited limits) n n (readFieldRest byte id) (readFieldRest byte id) := by
  refine (follows_decodeNibble _).bind fun tag => ?_
  have hlast : Follows pairing (Limited limits) n n (do
      onCodec fun codec => { codec with lastField := id }
      return (⟨tag, id⟩ : FieldHeader)) _ := .seq (follows_onCodec fun _ => rfl) (.pure _)
  exact .ite (fun _ => .seq (follows_onCodec fun _ => rfl) hlast) fun _ => hlast

theorem follows_fieldBegin : Follows pairing (Limited limits) n (n - 1) readFieldBegin readFieldBegin := by
  refine Endpoint.follows_byte.bind fun byte => .ite (fun _ => .pure _) fun _ => ?_
  refine .ite (fun _ => follows_i16.plain.bind (follows_fieldRest byte)) fun _ => ?_
  refine .get fun endpoint endpoint' hcodec _ => ?_
  rw [hcodec]
  exact follows_fieldRest byte _

theorem follows_mapBegin : Follows pairing (Limited limits) n (n - 1) readMapBegin readMapBegin := by
  refine .get fun endpoint endpoint' hcodec _ => ?_
  rw [hcodec]
  refine (follows_size _).bind fun size => .ite (fun _ => .pure _) fun _ => ?_
  exact Endpoint.follows_byte.plain.bind fun tags => (follows_decodeNibble _).bind fun key =>
    (follows_decodeNibble _).map _

theorem follows_listBegin : Follows pairing (Limited limits) n (n - 1) readListBegin readListBegin := by
  refine Endpoint.follows_byte.bind fun byte => (follows_decodeNibble _).bind fun elem =>
    .get fun endpoint endpoint' hcodec _ => ?_
  rw [hcodec]
  exact .ite (fun _ => (follows_size _).plain.map _) fun _ => (follows_checkLimit _ _).seq (.pure _)

/-! ## Writing -/

variable {twoWay : TwoWay}

private theorem follows_writeSize (size : Nat) :
    Follows twoWay.toPairing (Limited limits) n n (writeSize size) (writeSize size) :=
  (follows_checkWritable size).seq (follows_write _)

theorem follows_writeBytes (bytes : Bytes) :
    Follows twoWay.toPairing (Limited limits) n n (writeBytes bytes) (writeBytes bytes) :=
  (follows_writeSize _).seq (follows_write bytes)

theorem follows_writeMessageBegin (header : MessageHeader) :
    Follows twoWay.toPairing (Limited limits) n n (writeMessageBegin header) (writeMessageBegin header) := by
  refine (follows_writeByte mark).seq (.get fun endpoint endpoint' hcodec _ => ?_)
  rw [hcodec]
  exact (follows_writeByte _).seq ((follows_write _).seq (follows_writeBytes _))

private theorem follows_writeFieldHead (nibble : UInt8) (id : Int16) :
    Follows twoWay.toPairing (Limited limits) n n (writeFieldHead nibble id) (writeFieldHead nibble id) := by
  refine .get fun endpoint endpoint' hcodec _ => ?_
  rw [hcodec]
  have hlast : Follows twoWay.toPairing (Limited limits) n n
      (onCodec fun codec => { codec with lastField := id }) _ := follows_onCodec fun _ => rfl
  exact .ite (fun _ => (follows_writeByte _).seq hlast)
    fun _ => (follows_writeByte _).seq ((follows_write _).seq hlast)

theorem follows_writeFieldBegin (header : FieldHeader) :
    Follows twoWay.toPairing (Limited limits) n n (writeFieldBegin header) (writeFieldBegin header) :=
  .ite (fun _ => follows_onCodec fun _ => rfl)
    fun _ => (follows_encodeTag _).bind fun nibble => follows_writeFieldHead nibble _

theorem follows_writeBool (value : Bool) :
    Follows twoWay.toPairing (Limited limits) n n (writeBool value) (writeBool value) := by
  refine .get fun endpoint endpoint' hcodec _ => ?_
  rw [hcodec]
  split
  · exact .seq (follows_onCodec fun _ => rfl) (follows_writeFieldHead _ _)
  · exact follows_writeByte _

theorem follows_writeDouble (bits : UInt64) :
    Follows twoWay.toPairing (Limited limits) n n (writeDouble bits) (writeDouble bits) := by
  refine .get fun endpoint endpoint' hcodec _ => ?_
  rw [hcodec]
  split
  · exact follows_write _
  · exact follows_write _

theorem follows_writeMapBegin (header : MapHeader) :
    Follows twoWay.toPairing (Limited limits) n n (writeMapBegin header) (writeMapBegin header) := by
  refine .ite (fun _ => follows_writeByte 0) fun _ => ?_
  exact (follows_encodeTag _).bind fun key => (follows_encodeTag _).bind fun value =>
    (follows_writeSize _).seq (follows_writeByte _)

theorem follows_writeListBegin (header : ListHeader) :
    Follows twoWay.toPairing (Limited limits) n n (writeListBegin header) (writeListBegin header) :=
  (follows_encodeTag _).bind fun _ => .ite (fun _ => follows_writeByte _)
    fun _ => (follows_writeByte _).seq (follows_writeSize _)

end Compact
end RpcWire
