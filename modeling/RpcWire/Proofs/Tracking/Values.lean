import RpcWire.Proofs.Tracking.Codecs
import RpcWire.Search.Wire
import RpcWire.Session
import RpcWire.Value

/-! Whatever is read or written with either codec goes the same way on channels that deliver alike: single parts of a
value, values that are skipped or read whole, faults, requests and responses. -/
namespace RpcWire

def Codec.Suits (config : SessionConfig) : Codec → Prop
  | .binary codec => codec = { strict := config.strictRead, limits := config.limits }
  | .compact codec => codec.Limited config.limits

namespace WireM
open Endpoint
variable {pairing : Pairing} {config : SessionConfig} {n m : Nat}

/-- An action of either codec does the same if both forms of it do. -/
theorem follows_dispatch {α : Type} {binary : Binary.M α} {compact : Compact.M α}
    (hb : Follows pairing (fun codec => (Codec.binary codec).Suits config) n m binary binary)
    (hc : Follows pairing (Compact.Limited config.limits) n m compact compact) :
    Follows pairing (Codec.Suits config) n m (dispatch binary compact) (dispatch binary compact) := by
  rintro ⟨codec, channel⟩ ⟨codec', channel'⟩ h
  obtain rfl : codec = codec' := h.codec
  cases codec with
  | binary codec =>
    simp only [dispatch]
    refine Matches.onPart (hb ⟨rfl, h.known, h.near⟩) ?_ ?_
    · exact fun _ _ hm => ⟨congrArg Codec.binary hm.codec, hm.known, hm.near⟩
    · exact fun _ _ hm => ⟨congrArg Codec.binary hm.codec, hm.known, hm.near⟩
  | compact codec =>
    simp only [dispatch]
    refine Matches.onPart (hc ⟨rfl, h.known, h.near⟩) ?_ ?_
    · exact fun _ _ hm => ⟨congrArg Codec.compact hm.codec, hm.known, hm.near⟩
    · exact fun _ _ hm => ⟨congrArg Codec.compact hm.codec, hm.known, hm.near⟩

/-! ## Reading -/

theorem follows_messageBegin : Follows pairing (Codec.Suits config) n (n - 1) readMessageBegin readMessageBegin :=
  follows_dispatch Binary.follows_messageBegin Compact.follows_messageBegin

theorem follows_structBegin : Follows pairing (Codec.Suits config) n n readStructBegin readStructBegin :=
  follows_dispatch (.pure ()) Compact.follows_structBegin

theorem follows_structEnd : Follows pairing (Codec.Suits config) n n readStructEnd readStructEnd :=
  follows_dispatch (.pure ()) Compact.follows_structEnd

theorem follows_fieldBegin : Follows pairing (Codec.Suits config) n (n - 1) readFieldBegin readFieldBegin :=
  follows_dispatch Binary.follows_fieldBegin Compact.follows_fieldBegin

theorem follows_mapBegin : Follows pairing (Codec.Suits config) n (n - 1) readMapBegin readMapBegin :=
  follows_dispatch Binary.follows_mapBegin Compact.follows_mapBegin

theorem follows_listBegin : Follows pairing (Codec.Suits config) n (n - 1) readListBegin readListBegin :=
  follows_dispatch Binary.follows_listBegin Compact.follows_listBegin

theorem follows_bool : Follows pairing (Codec.Suits config) n n readBool readBool :=
  follows_dispatch Binary.follows_bool.plain Compact.follows_bool

theorem follows_byte : Follows pairing (Codec.Suits config) n n readByte readByte :=
  follows_dispatch Binary.follows_byte.plain Compact.follows_byte.plain

theorem follows_i16 : Follows pairing (Codec.Suits config) n n readI16 readI16 :=
  follows_dispatch Binary.follows_i16.plain Compact.follows_i16.plain

theorem follows_i32 : Follows pairing (Codec.Suits config) n n readI32 readI32 :=
  follows_dispatch Binary.follows_i32.plain Compact.follows_i32.plain

theorem follows_i64 : Follows pairing (Codec.Suits config) n n readI64 readI64 :=
  follows_dispatch Binary.follows_i64.plain Compact.follows_i64.plain

theorem follows_double : Follows pairing (Codec.Suits config) n n readDouble readDouble :=
  follows_dispatch Binary.follows_double.plain Compact.follows_double.plain

theorem follows_float : Follows pairing (Codec.Suits config) n n readFloat readFloat :=
  follows_dispatch Binary.follows_float.plain Compact.follows_float.plain

theorem follows_text : Follows pairing (Codec.Suits config) n n readText readText :=
  follows_dispatch Binary.follows_text.plain Compact.follows_text.plain

theorem follows_run : Follows pairing (Codec.Suits config) n n readBytes readBytes :=
  follows_dispatch Binary.follows_run.plain Compact.follows_run.plain

/-- Fields are read alike, also where the first run expects fewer of them: it stops before it runs out of them. -/
theorem follows_fieldHeads {β : Type} {step step' : β → FieldHeader → WireM β} {most most' : Nat}
    (hmost : most = most' ∨ pairing.stop .streamClosed ∧ most ≤ most')
    (hstep : ∀ k, k ≤ n - 1 → ∀ acc header,
      Follows pairing (Codec.Suits config) k k (step acc header) (step' acc header)) (acc : β) :
    Follows pairing (Codec.Suits config) n n (foldFieldHeads step most acc) (foldFieldHeads step' most' acc) := by
  induction most generalizing n most' acc with
  | zero =>
    rcases hmost with rfl | ⟨hstop, -⟩
    · exact .throw _
    · exact fun _ _ _ => .stopped hstop
  | succ most ih =>
    obtain ⟨most', rfl⟩ : ∃ less, most' = less + 1 := Nat.exists_eq_add_one_of_ne_zero (by omega)
    have hless : most = most' ∨ pairing.stop .streamClosed ∧ most ≤ most' :=
      hmost.imp Nat.succ.inj fun ⟨hstop, hle⟩ => ⟨hstop, Nat.le_of_succ_le_succ hle⟩
    refine Follows.widen (follows_fieldBegin.bind fun header => .ite (fun _ => .pure acc) fun _ => ?_) (Nat.sub_le n 1)
    refine (hstep _ (Nat.le_refl _) acc header).bind fun acc => ih hless (fun k hk => hstep k ?_) acc
    omega

/-- A struct is read alike if its fields are. -/
theorem follows_struct {β : Type} {init : β} {step step' : β → FieldHeader → WireM β}
    (hstep : ∀ k, k ≤ n - 1 → ∀ acc header,
      Follows pairing (Codec.Suits config) k k (step acc header) (step' acc header)) :
    Follows pairing (Codec.Suits config) n n (foldStruct init step) (foldStruct init step') := by
  refine follows_structBegin.seq (Tracks.get fun endpoint endpoint' h => ?_)
  have hmost : endpoint.channel.available + 1 = endpoint'.channel.available + 1 ∨
      pairing.stop .streamClosed ∧ endpoint.channel.available + 1 ≤ endpoint'.channel.available + 1 :=
    (pairing.available h.near).imp (congrArg (· + 1)) fun ⟨hstop, hle⟩ => ⟨hstop, Nat.succ_le_succ hle⟩
  exact Follows.bind (follows_fieldHeads hmost hstep init) fun _ => follows_structEnd.seq (.pure _)

private theorem follows_times {act act' : WireM Unit} (h : Follows pairing (Codec.Suits config) n n act act')
    (count : Nat) :
    Follows pairing (Codec.Suits config) n n (times act count) (times act' count) := by
  induction count with
  | zero => exact .pure ()
  | succ count ih => exact h.seq ih

private theorem follows_collect {β : Type} {act act' : WireM β}
    (h : Follows pairing (Codec.Suits config) n n act act')
    (count : Nat) : Follows pairing (Codec.Suits config) n n (collect act count) (collect act' count) := by
  induction count with
  | zero => exact .pure []
  | succ count ih => exact h.bind fun _ => ih.map _

private theorem follows_discard {β : Type} {act : WireM β}
    (h : Follows pairing (Codec.Suits config) n n act act) :
    Follows pairing (Codec.Suits config) n n (discard act) (discard act) :=
  h.bind fun _ => .pure _

/-- A value is skipped alike. -/
theorem follows_skip (depth : Nat) (tag : Tag) :
    Follows pairing (Codec.Suits config) n n (skip depth tag) (skip depth tag) := by
  induction depth generalizing n tag with
  | zero => exact .throw _
  | succ depth ih =>
    cases tag with
    | bool => exact follows_discard follows_bool
    | byte => exact follows_discard follows_byte
    | i16 => exact follows_discard follows_i16
    | i32 => exact follows_discard follows_i32
    | i64 => exact follows_discard follows_i64
    | double => exact follows_discard follows_double
    | float => exact follows_discard follows_float
    | string => exact follows_discard follows_run
    | struct => exact follows_struct fun _ _ _ header => ih header.tag
    | map =>
      exact follows_mapBegin.plain.bind fun header => follows_times ((ih header.key).seq (ih header.value)) _
    | set => exact follows_listBegin.plain.bind fun header => follows_times (ih header.elem) _
    | list => exact follows_listBegin.plain.bind fun header => follows_times (ih header.elem) _
    | stop => exact .throw _
    | void => exact .throw _

/-! ## Writing -/

variable {twoWay : TwoWay}

theorem follows_writeMessageBegin (header : MessageHeader) :
    Follows twoWay.toPairing (Codec.Suits config) n n (writeMessageBegin header) (writeMessageBegin header) :=
  follows_dispatch (Binary.follows_writeMessageBegin header) (Compact.follows_writeMessageBegin header)

theorem follows_writeStructBegin :
    Follows twoWay.toPairing (Codec.Suits config) n n writeStructBegin writeStructBegin :=
  follows_dispatch (.pure ()) Compact.follows_structBegin

theorem follows_writeStructEnd : Follows twoWay.toPairing (Codec.Suits config) n n writeStructEnd writeStructEnd :=
  follows_dispatch (.pure ()) Compact.follows_structEnd

theorem follows_writeFieldBegin (header : FieldHeader) :
    Follows twoWay.toPairing (Codec.Suits config) n n (writeFieldBegin header) (writeFieldBegin header) :=
  follows_dispatch (Binary.follows_writeFieldBegin header) (Compact.follows_writeFieldBegin header)

theorem follows_writeFieldStop : Follows twoWay.toPairing (Codec.Suits config) n n writeFieldStop writeFieldStop :=
  follows_dispatch (follows_writeByte _) (follows_writeByte _)

theorem follows_writeMapBegin (header : MapHeader) :
    Follows twoWay.toPairing (Codec.Suits config) n n (writeMapBegin header) (writeMapBegin header) :=
  follows_dispatch (Binary.follows_writeMapBegin header) (Compact.follows_writeMapBegin header)

theorem follows_writeListBegin (header : ListHeader) :
    Follows twoWay.toPairing (Codec.Suits config) n n (writeListBegin header) (writeListBegin header) :=
  follows_dispatch (Binary.follows_writeListBegin header) (Compact.follows_writeListBegin header)

theorem follows_writeBool (value : Bool) :
    Follows twoWay.toPairing (Codec.Suits config) n n (writeBool value) (writeBool value) :=
  follows_dispatch (follows_writeByte _) (Compact.follows_writeBool value)

theorem follows_writeByte (value : Int8) :
    Follows twoWay.toPairing (Codec.Suits config) n n (writeByte value) (writeByte value) :=
  follows_dispatch (Endpoint.follows_writeByte _) (Endpoint.follows_writeByte _)

theorem follows_writeI16 (value : Int16) :
    Follows twoWay.toPairing (Codec.Suits config) n n (writeI16 value) (writeI16 value) :=
  follows_dispatch (follows_write _) (follows_write _)

theorem follows_writeI32 (value : Int32) :
    Follows twoWay.toPairing (Codec.Suits config) n n (writeI32 value) (writeI32 value) :=
  follows_dispatch (follows_write _) (follows_write _)

theorem follows_writeI64 (value : Int64) :
    Follows twoWay.toPairing (Codec.Suits config) n n (writeI64 value) (writeI64 value) :=
  follows_dispatch (follows_write _) (follows_write _)

theorem follows_writeDouble (bits : UInt64) :
    Follows twoWay.toPairing (Codec.Suits config) n n (writeDouble bits) (writeDouble bits) :=
  follows_dispatch (follows_write _) (Compact.follows_writeDouble bits)

theorem follows_writeFloat (bits : UInt32) :
    Follows twoWay.toPairing (Codec.Suits config) n n (writeFloat bits) (writeFloat bits) :=
  follows_dispatch (follows_write _) (follows_write _)

theorem follows_writeText (text : String) :
    Follows twoWay.toPairing (Codec.Suits config) n n (writeText text) (writeText text) :=
  follows_dispatch (Binary.follows_writeBytes _) (Compact.follows_writeBytes _)

theorem follows_writeBytes (bytes : Bytes) :
    Follows twoWay.toPairing (Codec.Suits config) n n (writeBytes bytes) (writeBytes bytes) :=
  follows_dispatch (Binary.follows_writeBytes bytes) (Compact.follows_writeBytes bytes)

theorem follows_flush : Follows twoWay.toPairing (Codec.Suits config) n n flush flush :=
  .onChannel (twoWay.flush n)

end WireM

open WireM
variable {pairing : Pairing} {twoWay : TwoWay} {config : SessionConfig} {n : Nat}

/-- A value is read alike to the same depth, or to a larger one where the first run stops at its depth or does not reach
it: every level takes an octet. -/
theorem Value.follows_readWithin {depth depth' : Nat}
    (h : depth = depth' ∨ depth ≤ depth' ∧
      (pairing.stop .depthLimit ∨ (∀ channel channel', ¬pairing.near 0 channel channel') ∧ n ≤ depth)) (tag : Tag) :
    Follows pairing (Codec.Suits config) n n (readWithin depth tag) (readWithin depth' tag) := by
  induction depth generalizing n depth' tag with
  | zero =>
    rcases h with rfl | ⟨-, hstop | ⟨hnone, hdepth⟩⟩
    · exact .throw _
    · exact fun _ _ _ => .stopped hstop
    · obtain rfl := Nat.le_zero.mp hdepth
      exact fun _ _ h => absurd h.near (hnone _ _)
  | succ depth ih =>
    obtain ⟨depth', rfl⟩ : ∃ less, depth' = less + 1 := Nat.exists_eq_add_one_of_ne_zero (by omega)
    have hpart {k : Nat} (hk : k ≤ n - 1) (tag : Tag) :
        Follows pairing (Codec.Suits config) k k (readWithin depth tag) (readWithin depth' tag) :=
      ih (h.imp Nat.succ.inj fun ⟨hle, hend⟩ => ⟨Nat.le_of_succ_le_succ hle, hend.imp_right fun ⟨hnone, _⟩ =>
        ⟨hnone, by omega⟩⟩) tag
    have hparts := hpart (Nat.le_refl _)
    cases tag with
    | bool => exact follows_bool.map _
    | byte => exact follows_byte.map _
    | i16 => exact follows_i16.map _
    | i32 => exact follows_i32.map _
    | i64 => exact follows_i64.map _
    | double => exact follows_double.map _
    | float => exact follows_float.map _
    | string => exact follows_run.map _
    | struct => exact Follows.map _ (follows_struct fun _ hk fields header => (hpart hk header.tag).map _)
    | map =>
      exact (follows_mapBegin.bind fun header => Follows.map _ (follows_collect
        ((hparts header.key).bind fun key => (hparts header.value).map _) _)).plain
    | set => exact (follows_listBegin.bind fun header => Follows.map _ (follows_collect (hparts header.elem) _)).plain
    | list => exact (follows_listBegin.bind fun header => Follows.map _ (follows_collect (hparts header.elem) _)).plain
    | stop => exact .throw _
    | void => exact .throw _

theorem Fault.follows_read (depth : Nat) :
    Follows pairing (Codec.Suits config) n n (read depth) (read depth) := by
  refine follows_struct fun k _ fault header => ?_
  split
  · exact follows_text.map _
  · exact follows_i32.map _
  · exact (follows_skip depth _).seq (.pure fault)

theorem Fault.follows_write (fault : Fault) :
    Follows twoWay.toPairing (Codec.Suits config) n n fault.write fault.write :=
  follows_writeStructBegin.seq ((follows_writeFieldBegin _).seq ((follows_writeText _).seq
    ((follows_writeFieldBegin _).seq ((follows_writeI32 _).seq (follows_writeFieldStop.seq follows_writeStructEnd)))))

namespace Search

theorem Request.follows_read (depth : Nat) :
    Follows pairing (Codec.Suits config) n n (read depth) (read depth) := by
  refine follows_struct fun k _ request header => ?_
  split
  · exact follows_text.map _
  · exact follows_i32.map _
  · exact follows_i32.map _
  · exact (follows_skip depth _).seq (.pure request)

theorem Request.follows_write (request : Request) :
    Follows twoWay.toPairing (Codec.Suits config) n n request.write request.write :=
  follows_writeStructBegin.seq ((follows_writeFieldBegin _).seq ((follows_writeText _).seq
    ((follows_writeFieldBegin _).seq ((follows_writeI32 _).seq ((follows_writeFieldBegin _).seq
      ((follows_writeI32 _).seq (follows_writeFieldStop.seq follows_writeStructEnd)))))))

theorem Response.follows_read (depth : Nat) :
    Follows pairing (Codec.Suits config) n n (read depth) (read depth) := by
  refine follows_struct fun k _ response header => ?_
  split
  · exact follows_listBegin.plain.bind fun list => (follows_collect follows_text list.size).map _
  · exact follows_i32.map _
  · exact (follows_skip depth _).seq (.pure response)

private theorem Response.follows_writeTexts (texts : List String) :
    Follows twoWay.toPairing (Codec.Suits config) n n (writeTexts texts) (writeTexts texts) := by
  induction texts with
  | nil => exact .pure ()
  | cons text rest ih => exact (follows_writeText text).seq ih

theorem Response.follows_write (response : Response) :
    Follows twoWay.toPairing (Codec.Suits config) n n response.write response.write :=
  follows_writeStructBegin.seq ((follows_writeFieldBegin _).seq ((follows_writeListBegin _).seq
    ((follows_writeTexts _).seq ((follows_writeFieldBegin _).seq ((follows_writeI32 _).seq
      (follows_writeFieldStop.seq follows_writeStructEnd))))))

end Search
end RpcWire
