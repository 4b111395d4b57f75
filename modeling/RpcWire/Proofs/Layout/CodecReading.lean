import RpcWire.Proofs.Layout
import RpcWire.Proofs.Numbers
import RpcWire.Proofs.Steps
import RpcWire.Proofs.Supply

/-! What readers take: given the layout of something, however its octets arrive, they give it back and take
nothing else. -/
namespace RpcWire

/-- On every channel that holds the octets, the action takes exactly them and gives the result. -/
def Reads {κ α : Type} (codec : κ) (act : CodecM κ α) (bytes : Bytes) (result : α) (codec' : κ) : Prop :=
  ∀ ⦃channel base : Channel⦄ ⦃rest later : Bytes⦄, channel.Holds base (bytes ++ rest) later →
    ∃ after, act ⟨codec, channel⟩ = .ok result ⟨codec', after⟩ ∧ after.Holds base rest later

namespace Reads
variable {κ α β : Type} {codec codec' codec'' : κ} {act : CodecM κ α} {bytes more : Bytes} {value : α} {result : β}

theorem pure (codec : κ) (value : α) : Reads codec (pure value) [] value codec :=
  fun _ _ _ _ h => ⟨_, rfl, h⟩

theorem bind {next : α → CodecM κ β} (h : Reads codec act bytes value codec')
    (h' : Reads codec' (next value) more result codec'') :
    Reads codec (act >>= next) (bytes ++ more) result codec'' := by
  intro channel base rest later hs
  rw [List.append_assoc] at hs
  obtain ⟨middle, hact, hm⟩ := h hs
  obtain ⟨after, hnext, ha⟩ := h' hm
  exact ⟨after, by rw [bind_of_ok hact, hnext], ha⟩

/-- What takes no octets at first. -/
theorem after {next : α → CodecM κ β} (h : Reads codec act [] value codec')
    (h' : Reads codec' (next value) bytes result codec'') : Reads codec (act >>= next) bytes result codec'' :=
  h.bind h'

/-- What takes no more octets. -/
theorem ending {next : α → CodecM κ β} (h : Reads codec act bytes value codec')
    (h' : Reads codec' (next value) [] result codec'') : Reads codec (act >>= next) bytes result codec'' := by
  have hall := h.bind h'
  rwa [List.append_nil] at hall

theorem returning {f : α → β} (h : Reads codec act bytes value codec') :
    Reads codec (act >>= fun value => Pure.pure (f value)) bytes (f value) codec' :=
  h.ending (pure codec' (f value))

/-- Looking at the codec takes no octets. -/
theorem get {next : Endpoint κ → CodecM κ β}
    (h : ∀ channel, Reads codec (next ⟨codec, channel⟩) bytes result codec') :
    Reads codec (get >>= next) bytes result codec' :=
  fun channel _ _ _ hs => h channel hs

theorem congr {bytes' : Bytes} (h : Reads codec act bytes value codec') (hb : bytes = bytes') :
    Reads codec act bytes' value codec' :=
  hb ▸ h

end Reads

namespace Endpoint
variable {κ : Type} (codec : κ)

/-- A size within a limit; zero is no limit. -/
def Within (limit size : Nat) : Prop := limit = 0 ∨ size ≤ limit

theorem channel_ok {κ α : Type} {codec : κ} {act : ChannelM α} {channel after : Channel} {value : α}
    (h : act channel = .ok value after) : onChannel act ⟨codec, channel⟩ = .ok value ⟨codec, after⟩ :=
  onPart_ok h

theorem channel_error {κ α : Type} {codec : κ} {act : ChannelM α} {channel after : Channel} {err : WireError}
    (h : act channel = .error err after) : onChannel act ⟨codec, channel⟩ = .error err ⟨codec, after⟩ :=
  onPart_error h

theorem reads_onChannel {α : Type} {act : ChannelM α} {bytes : Bytes} {value : α}
    (h : ∀ channel after, Channel.read bytes.length channel = .ok bytes after → act channel = .ok value after) :
    Reads codec (onChannel act) bytes value codec := by
  intro channel base rest later hs
  obtain ⟨after, hr, ha⟩ := hs.read_bytes
  exact ⟨after, onPart_ok (h channel after hr), ha⟩

private theorem reads_bytes (bytes : Bytes) :
    Reads codec (onChannel (Channel.read bytes.length)) bytes bytes codec :=
  reads_onChannel codec fun _ _ hr => hr

theorem reads_byte (byte : UInt8) : Reads codec readByte [byte] byte codec :=
  reads_onChannel codec fun _ _ hr => bind_of_ok hr

private theorem reads_bigEndian {width n : Nat} (h : n < Nat.pow 256 width) :
    Reads codec (readBigEndian width) (Bytes.bigEndian width n) n codec := by
  apply reads_onChannel codec
  intro channel after hr
  rw [Bytes.length_bigEndian] at hr
  have hn : Channel.readBigEndian width channel = .ok (Bytes.bigEndian width n).toNat after := bind_of_ok hr
  rwa [Bytes.toNat_bigEndian_of_lt h] at hn

private theorem reads_checkLimit {limit size : Nat} (h : Within limit size) :
    Reads codec (checkLimit size limit) [] () codec := by
  have hno : ¬(0 < limit ∧ limit < size) := by
    rcases h with h | h <;> omega
  rw [checkLimit, if_neg hno]
  exact Reads.pure codec ()

private theorem reads_decodeText (text : String) :
    Reads codec (decodeText (Utf8.encode text)) [] text codec := by
  rw [decodeText, Utf8.decode?_encode]
  exact Reads.pure codec text

private theorem reads_decodeTag (tag : Tag) : Reads codec (decodeTag tag.toByte) [] tag codec := by
  rw [decodeTag, Tag.ofByte?_toByte]
  exact Reads.pure codec tag

private theorem reads_decodeKind (kind : MessageKind) : Reads codec (decodeKind kind.toByte) [] kind codec := by
  rw [decodeKind, MessageKind.ofByte?_toByte]
  exact Reads.pure codec kind

end Endpoint

namespace Binary
open Endpoint
variable (codec : Binary)

theorem reads_i16 (value : Int16) : Reads codec readI16 (Format.binary.i16 value) value codec :=
  (reads_bigEndian codec (by exact value.toUInt16.toNat_lt)).ending (by simpa using Reads.pure codec value)

theorem reads_i32 (value : Int32) : Reads codec readI32 (Format.binary.i32 value) value codec :=
  (reads_bigEndian codec (by exact value.toUInt32.toNat_lt)).ending (by simpa using Reads.pure codec value)

theorem reads_i64 (value : Int64) : Reads codec readI64 (Format.binary.i64 value) value codec :=
  (reads_bigEndian codec (by exact value.toUInt64.toNat_lt)).ending (by simpa using Reads.pure codec value)

theorem reads_double (bits : UInt64) : Reads codec readDouble (Format.binary.double bits) bits codec :=
  (reads_bigEndian codec (by exact bits.toNat_lt)).ending (by simpa using Reads.pure codec bits)

theorem reads_float (bits : UInt32) : Reads codec readFloat (Bytes.bigEndian 4 bits.toNat) bits codec :=
  (reads_bigEndian codec (by exact bits.toNat_lt)).ending (by simpa using Reads.pure codec bits)

theorem reads_byte (value : Int8) : Reads codec readByte [value.toUInt8] value codec :=
  (Endpoint.reads_byte codec _).ending (by simpa using Reads.pure codec value)

theorem reads_bool (value : Bool) : Reads codec readBool (Format.binary.bool value) value codec :=
  (Endpoint.reads_byte codec _).ending (by cases value <;> exact Reads.pure codec _)

/-- A size that can be written is no negative number. -/
theorem toInt_ofNat {size : Nat} (h : size ≤ maxSize) : (UInt32.ofNat size).toInt32.toInt = size := by
  rw [UInt32.toInt32_ofNat']
  exact Int32.toInt_ofNat_of_lt (Nat.lt_succ_of_le h)

private theorem reads_size {limit size : Nat} (h : size ≤ maxSize) (hlimit : Within limit size) :
    Reads codec (readSize limit) (Format.binary.size size) size codec := by
  have hlt : size < Nat.pow 256 4 := Nat.lt_of_le_of_lt h (by decide)
  have hint := toInt_ofNat h
  have hsize : ¬(UInt32.ofNat size).toInt32 < 0 := by
    rw [Int32.lt_iff_toInt_lt, hint]
    simp
  refine ((reads_bigEndian codec hlt).returning (f := fun n => (UInt32.ofNat n).toInt32)).ending ?_
  simp only [hsize, if_false, hint, Int.toNat_natCast]
  exact (reads_checkLimit codec hlimit).ending (Reads.pure codec size)

theorem reads_run {bytes : Bytes} (h : bytes.length ≤ maxSize) (hlimit : Within codec.limits.text bytes.length) :
    Reads codec readBytes (Format.binary.run bytes) bytes codec :=
  Reads.get fun _ => (reads_size codec h hlimit).bind (reads_bytes codec bytes)

theorem reads_text {text : String} (h : (Utf8.encode text).length ≤ maxSize)
    (hlimit : Within codec.limits.text (Utf8.encode text).length) :
    Reads codec readText (Format.binary.text text) text codec :=
  (reads_run codec h hlimit).ending (reads_decodeText codec text)

theorem reads_tag (tag : Tag) : Reads codec readTag [tag.toByte] tag codec :=
  (Endpoint.reads_byte codec _).ending (reads_decodeTag codec tag)

theorem reads_fieldBegin {tag : Tag} (h : tag ≠ .stop) (id : Int16) :
    Reads codec readFieldBegin (tag.toByte :: Bytes.bigEndian 2 id.toUInt16.toNat) ⟨tag, id⟩ codec := by
  apply (reads_tag codec tag).bind
  rw [if_neg h]
  exact (reads_i16 codec id).returning

theorem reads_stop : Reads codec readFieldBegin [0] .stop codec :=
  (reads_tag codec .stop).ending (Reads.pure codec _)

theorem reads_mapBegin {header : MapHeader} (h : header.size ≤ maxSize)
    (hlimit : Within codec.limits.container header.size) :
    Reads codec readMapBegin (Format.binary.mapHead header) header codec :=
  (reads_tag codec header.key).bind ((reads_tag codec header.value).bind
    (Reads.get fun _ => (reads_size codec h hlimit).returning))

theorem reads_listBegin {header : ListHeader} (h : header.size ≤ maxSize)
    (hlimit : Within codec.limits.container header.size) :
    Reads codec readListBegin (Format.binary.listHead header) header codec :=
  (reads_tag codec header.elem).bind (Reads.get fun _ => (reads_size codec h hlimit).returning)

/-- The word at the head of a message is negative, and tells the kind of the message. -/
theorem versionWord (kind : MessageKind) :
    let word := version ||| kind.toByte.toUInt32
    word.toInt32 < 0 ∧ word &&& versionMask = version ∧ word.toUInt8 = kind.toByte := by
  cases kind <;> decide

theorem reads_messageBegin {header : MessageHeader} (h : (Utf8.encode header.name).length ≤ maxSize)
    (hlimit : Within codec.limits.text (Utf8.encode header.name).length) :
    Reads codec readMessageBegin (Format.binary.message header) header codec := by
  obtain ⟨hneg, hversion, hkind⟩ := versionWord header.kind
  have hword := reads_i32 codec (version ||| header.kind.toByte.toUInt32).toInt32
  refine hword.bind (Reads.get fun _ => ?_)
  simp only [hneg, if_true, UInt32.toUInt32_toInt32, hversion, ne_eq, not_true_eq_false, if_false, hkind]
  exact (reads_decodeKind codec header.kind).after
    ((reads_text codec h hlimit).bind (reads_i32 codec header.seqId).returning)

end Binary

namespace Compact
open Endpoint
variable (codec : Compact)

private theorem reads_groups (most : Nat) {left n : Nat} (h : (Varint.encode n).length ≤ left) :
    Reads codec (readGroups most left) (Varint.encode n) (Varint.encode n) codec := by
  induction left generalizing n with
  | zero => exact absurd (Varint.length_encode_pos n) (by omega)
  | succ left ih =>
    rw [readGroups]
    rw [Varint.encode] at h ⊢
    split
    · next hlt =>
      apply (Endpoint.reads_byte codec _).ending
      rw [Varint.continues_ofNat hlt]
      exact Reads.pure codec _
    · next hge =>
      rw [if_neg hge, List.length_cons] at h
      apply (Endpoint.reads_byte codec _).bind
      rw [Varint.continues_group]
      exact (ih (Nat.le_of_succ_le_succ h)).returning

private theorem reads_varint {most n : Nat} (h : (Varint.encode n).length ≤ most) :
    Reads codec (readVarint most) (Varint.encode n) n codec := by
  have hv : Reads codec (readVarint most) (Varint.encode n) (Varint.value (Varint.encode n)) codec :=
    (reads_groups codec most h).returning
  rwa [Varint.value_encode] at hv

private theorem reads_varint32 (value : UInt32) :
    Reads codec readVarint32 (Varint.encode value.toNat) value codec := by
  have hlt := value.toNat_lt
  apply (reads_varint codec (Varint.length_encode_le (by decide) (by omega))).ending
  rw [if_neg (Nat.not_le.mpr hlt), UInt32.ofNat_toNat]
  exact Reads.pure codec value

private theorem reads_varint64 (value : UInt64) :
    Reads codec readVarint64 (Varint.encode value.toNat) value codec := by
  have hlt := value.toNat_lt
  apply (reads_varint codec (Varint.length_encode_le (by decide) (by omega))).ending
  rw [UInt64.ofNat_toNat]
  exact Reads.pure codec value

private theorem reads_size {limit size : Nat} (h : size ≤ maxSize) (hlimit : Within limit size) :
    Reads codec (readSize limit) (Varint.encode size) size codec := by
  have hlt : size < 2 ^ 32 := Nat.lt_of_le_of_lt h (by decide)
  have hsize : (UInt32.ofNat size).toNat = size := UInt32.toNat_ofNat_of_lt' hlt
  have hv := reads_varint32 codec (UInt32.ofNat size)
  rw [hsize] at hv
  apply hv.ending
  simp only [hsize, Nat.not_lt.mpr h, if_false]
  exact (reads_checkLimit codec hlimit).ending (Reads.pure codec size)

theorem reads_i16 (value : Int16) :
    Reads codec readI16 ((Format.compact codec.version).i16 value) value codec := by
  apply (reads_varint32 codec _).ending
  have hrange : ¬(value.toInt32 < -32768 ∨ 32767 < value.toInt32) := by
    simp only [Int32.lt_iff_toInt_lt, Int16.toInt_toInt32]
    have := value.le_toInt
    have := value.toInt_lt
    have : (-32768 : Int32).toInt = -32768 := rfl
    have : (32767 : Int32).toInt = 32767 := rfl
    omega
  simp only [Zigzag.decode32_encode32, hrange, if_false, Int16.toInt16_toInt32]
  exact Reads.pure codec value

theorem reads_i32 (value : Int32) :
    Reads codec readI32 ((Format.compact codec.version).i32 value) value codec :=
  (reads_varint32 codec _).ending (by simpa [Zigzag.decode32_encode32] using Reads.pure codec value)

theorem reads_i64 (value : Int64) :
    Reads codec readI64 ((Format.compact codec.version).i64 value) value codec :=
  (reads_varint64 codec _).ending (by simpa [Zigzag.decode64_encode64] using Reads.pure codec value)

theorem reads_double (bits : UInt64) :
    Reads codec readDouble ((Format.compact codec.version).double bits) bits codec := by
  have hlt : bits.toNat < Nat.pow 256 8 := bits.toNat_lt
  cases hv : codec.version with
  | littleEndian =>
    have hb := reads_bytes codec (Bytes.littleEndian 8 bits.toNat)
    rw [Bytes.length_littleEndian] at hb
    refine hb.ending (Reads.get fun _ => ?_)
    simp only [hv, Bytes.toNat_reverse_littleEndian hlt, UInt64.ofNat_toNat]
    exact Reads.pure codec bits
  | bigEndian =>
    have hb := reads_bytes codec (Bytes.bigEndian 8 bits.toNat)
    rw [Bytes.length_bigEndian] at hb
    refine hb.ending (Reads.get fun _ => ?_)
    simp only [hv, Bytes.toNat_bigEndian_of_lt hlt, UInt64.ofNat_toNat]
    exact Reads.pure codec bits

theorem reads_float (bits : UInt32) : Reads codec readFloat (Bytes.bigEndian 4 bits.toNat) bits codec :=
  (reads_bigEndian codec (by exact bits.toNat_lt)).ending (by simpa using Reads.pure codec bits)

theorem reads_byte (value : Int8) : Reads codec readByte [value.toUInt8] value codec :=
  (Endpoint.reads_byte codec _).ending (by simpa using Reads.pure codec value)

theorem reads_bool (value : Bool) (h : codec.pendingRead = none) :
    Reads codec readBool ((Format.compact codec.version).bool value) value codec := by
  apply Reads.get
  intro _
  simp only [h]
  exact (Endpoint.reads_byte codec _).ending (by cases value <;> exact Reads.pure codec _)

theorem reads_onCodec (f : Compact → Compact) : Reads codec (onCodec f) [] () (f codec) :=
  fun channel _ _ _ h => ⟨channel, rfl, h⟩

/-- A truth value that came in the head of its field is not read again. -/
theorem reads_pendingBool {value : Bool} (h : codec.pendingRead = some value) :
    Reads codec readBool [] value { codec with pendingRead := none } := by
  apply Reads.get
  intro _
  simp only [h]
  exact (reads_onCodec codec _).ending (Reads.pure _ value)

theorem reads_run {bytes : Bytes} (h : bytes.length ≤ maxSize) (hlimit : Within codec.limits.text bytes.length) :
    Reads codec readBytes ((Format.compact codec.version).run bytes) bytes codec :=
  Reads.get fun _ => (reads_size codec h hlimit).bind (reads_bytes codec bytes)

theorem reads_text {text : String} (h : (Utf8.encode text).length ≤ maxSize)
    (hlimit : Within codec.limits.text (Utf8.encode text).length) :
    Reads codec readText ((Format.compact codec.version).text text) text codec :=
  (reads_run codec h hlimit).ending (reads_decodeText codec text)

/-- The four bits of a shape tell the shape, and none of those that end a struct or are no shape at all. -/
theorem tagOfNibble_nibble {tag : Tag} (h : tag ≠ .void) : tagOfNibble (Format.nibble tag) = some tag := by
  cases tag <;> first | exact absurd rfl h | decide

theorem nibble_lt (tag : Tag) : (Format.nibble tag).toNat < 16 := by
  cases tag <;> decide

theorem nibble_ne_stop {tag : Tag} (h : tag ≠ .void) (h' : tag ≠ .stop) : Format.nibble tag ≠ stopNibble := by
  cases tag <;> first | exact absurd rfl h | exact absurd rfl h' | decide

theorem reads_decodeNibble {tag : Tag} {nibble : UInt8} (h : tagOfNibble nibble = some tag) :
    Reads codec (decodeNibble nibble) [] tag codec := by
  rw [decodeNibble, h]
  exact Reads.pure codec tag

private theorem halves_or {high : Nat} {low : UInt8} (hhigh : high < 16) (hlow : low.toNat < 16) :
    (UInt8.ofNat (high * 16) ||| low) >>> 4 = UInt8.ofNat high ∧
      (UInt8.ofNat (high * 16) ||| low) &&& 0x0f = low := by
  have h := halves high hhigh low.toNat hlow
  rwa [UInt8.ofNat_toNat] at h

private theorem halves_low {low : UInt8} (h : low.toNat < 16) : low >>> 4 = 0 ∧ low &&& 0x0f = low := by
  simpa using halves_or (by decide : 0 < 16) h

/-- A step of one to fifteen leads from the field before to the field. -/
theorem step_add {last id : Int16} {step : Nat} (h : step < 16) (hstep : id.toInt - last.toInt = step) :
    last + (UInt8.ofNat step).toUInt16.toInt16 = id := by
  have hword : ∀ step < 16, (UInt8.ofNat step).toUInt16.toInt16 = Int16.ofInt step := by decide
  have hid : id.toInt = last.toInt + step := by omega
  rw [hword step h, ← Int16.ofInt_toInt id, hid, Int16.ofInt_add, Int16.ofInt_toInt]

def afterHead (codec : Compact) (tag : Tag) (nibble : UInt8) (id : Int16) : Compact :=
  { codec with lastField := id, pendingRead := if tag = .bool then some (nibble == trueNibble) else codec.pendingRead }

theorem reads_fieldBegin {tag : Tag} {nibble : UInt8} (htag : tagOfNibble nibble = some tag)
    (hlt : nibble.toNat < 16) (hstop : nibble ≠ stopNibble) (id : Int16) :
    Reads codec readFieldBegin (Format.compactFieldHead codec.lastField nibble id) ⟨tag, id⟩
      (codec.afterHead tag nibble id) := by
  -- What follows once the number of the field is known.
  have hrest : Reads codec (do
      let tag ← decodeNibble nibble
      if tag = .bool then
        onCodec fun codec => { codec with pendingRead := some (nibble == trueNibble) }
      onCodec fun codec => { codec with lastField := id }
      return (⟨tag, id⟩ : FieldHeader)) [] ⟨tag, id⟩ (codec.afterHead tag nibble id) := by
    apply (reads_decodeNibble codec htag).ending
    by_cases hb : tag = .bool
    · simp only [hb, if_true, afterHead]
      exact (reads_onCodec codec _).ending ((reads_onCodec _ _).ending (Reads.pure _ _))
    · simp only [hb, if_false, afterHead]
      exact (reads_onCodec codec _).ending (Reads.pure _ _)
  simp only [Format.compactFieldHead]
  split
  · next hstep =>
    obtain ⟨step, hs⟩ := Int.eq_ofNat_of_zero_le (by omega : 0 ≤ id.toInt - codec.lastField.toInt)
    rw [hs] at hstep ⊢
    have hlt' : step < 16 := by omega
    obtain ⟨hhigh, hlow⟩ := halves_or hlt' hlt
    have hne : UInt8.ofNat step ≠ 0 := by
      rw [ne_eq, ← UInt8.toNat_inj, UInt8.toNat_ofNat_of_lt' (Nat.lt_trans hlt' (by decide))]
      simp
      omega
    apply (Endpoint.reads_byte codec _).ending
    simp only [Int.toNat_natCast, hlow, hhigh, hstop, if_false, hne]
    apply Reads.get
    intro _
    rw [pure_bind, step_add hlt' hs]
    exact hrest
  · obtain ⟨hhigh, hlow⟩ := halves_low hlt
    apply (Endpoint.reads_byte codec _).bind
    simp only [hlow, hhigh, hstop, if_false, if_true]
    exact (reads_i16 codec id).ending hrest

theorem reads_stop : Reads codec readFieldBegin [0] .stop codec :=
  (Endpoint.reads_byte codec 0).ending (Reads.pure codec _)

/-- An empty map names no shapes. -/
theorem reads_mapBegin_zero (key value : Tag) :
    Reads codec readMapBegin ((Format.compact codec.version).mapHead ⟨key, value, 0⟩) ⟨.stop, .stop, 0⟩ codec := by
  have hsize : Reads codec (readSize codec.limits.container) [0] 0 codec :=
    (reads_size codec (Nat.zero_le _) (.inr (Nat.zero_le _))).congr (by rw [Varint.encode]; rfl)
  exact Reads.get fun _ => hsize.ending (Reads.pure codec (⟨.stop, .stop, 0⟩ : MapHeader))

theorem reads_mapBegin {header : MapHeader} (h : header.size ≤ maxSize) (hpos : header.size ≠ 0)
    (hlimit : Within codec.limits.container header.size) (hkey : header.key ≠ .void) (hvalue : header.value ≠ .void) :
    Reads codec readMapBegin ((Format.compact codec.version).mapHead header) header codec := by
  have hbyte : Format.nibble header.key <<< 4 = UInt8.ofNat ((Format.nibble header.key).toNat * 16) := by
    cases header.key <;> decide
  obtain ⟨hhigh, hlow⟩ := halves_or (nibble_lt header.key) (nibble_lt header.value)
  rw [← hbyte, UInt8.ofNat_toNat] at hhigh
  rw [← hbyte] at hlow
  apply Reads.get
  intro _
  rw [Format.mapHead, if_neg hpos]
  apply (reads_size codec h hlimit).bind
  rw [if_neg hpos]
  apply (Endpoint.reads_byte codec _).ending
  rw [hhigh, hlow]
  exact (reads_decodeNibble codec (tagOfNibble_nibble hkey)).ending
    (reads_decodeNibble codec (tagOfNibble_nibble hvalue)).returning

theorem reads_listBegin {header : ListHeader} (h : header.size ≤ maxSize)
    (hlimit : Within codec.limits.container header.size) (helem : header.elem ≠ .void) :
    Reads codec readListBegin ((Format.compact codec.version).listHead header) header codec := by
  have htag := reads_decodeNibble codec (tagOfNibble_nibble helem)
  rw [Format.listHead]
  split
  · next hshort =>
    obtain ⟨hhigh, hlow⟩ := halves_or (Nat.lt_succ_of_le (Nat.le_succ_of_le hshort)) (nibble_lt header.elem)
    have hsize : (UInt8.ofNat header.size).toNat = header.size :=
      UInt8.toNat_ofNat_of_lt' (Nat.lt_of_le_of_lt hshort (by decide))
    apply (Endpoint.reads_byte codec _).ending
    rw [hhigh, hlow]
    refine htag.ending (Reads.get fun _ => ?_)
    simp only [hsize]
    rw [if_neg (by omega)]
    exact (reads_checkLimit codec hlimit).ending (Reads.pure codec header)
  · obtain ⟨hhigh, hlow⟩ := halves_or (by decide : 15 < 16) (nibble_lt header.elem)
    apply (Endpoint.reads_byte codec _).bind
    rw [show (0xf0 : UInt8) = UInt8.ofNat (15 * 16) from rfl, hhigh, hlow]
    exact htag.after (Reads.get fun _ => (reads_size codec h hlimit).returning)

/-- The octet after the mark tells the version of the codec and the kind of the message. -/
theorem versionByte (version : CompactVersion) (kind : MessageKind) :
    let byte := version.toByte ||| kind.toByte <<< 5
    CompactVersion.ofByte? (byte &&& versionMask) = some version ∧ byte >>> 5 = kind.toByte := by
  cases version <;> cases kind <;> decide

/-- The version of a message is kept. -/
theorem reads_messageBegin (version : CompactVersion) {header : MessageHeader}
    (h : (Utf8.encode header.name).length ≤ maxSize)
    (hlimit : Within codec.limits.text (Utf8.encode header.name).length) :
    Reads codec readMessageBegin ((Format.compact version).message header) header { codec with version } := by
  obtain ⟨hversion, hkind⟩ := versionByte version header.kind
  apply (Endpoint.reads_byte codec mark).bind
  rw [if_neg (by simp)]
  apply (Endpoint.reads_byte codec _).bind
  simp only [hversion, hkind]
  refine (reads_onCodec codec _).after ((reads_decodeKind _ header.kind).after ?_)
  have hseq := reads_varint32 { codec with version } header.seqId.toUInt32
  apply hseq.bind
  exact (reads_text { codec with version } h hlimit).returning

theorem reads_structBegin :
    Reads codec structBegin [] ()
      { codec with lastField := 0, outerFields := codec.lastField :: codec.outerFields } :=
  reads_onCodec codec _

theorem reads_structEnd {last : Int16} {outer : List Int16} (h : codec.outerFields = last :: outer) :
    Reads codec structEnd [] () { codec with lastField := last, outerFields := outer } := by
  apply Reads.get
  intro _
  simp only [h]
  exact reads_onCodec codec _

end Compact
end RpcWire
