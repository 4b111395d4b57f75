import RpcWire.Proofs.Sizes

/-! The octets that announce a size, in either encoding, and what becomes of a size that is announced. -/
namespace RpcWire

/-! ## Parts with a size -/

/-- The parts of a message that have a size in front of them. A set is written as a list is. -/
inductive Sized where
  | run | text | name | map | list
  deriving DecidableEq, Repr

namespace Sized

abbrev Result : Sized → Type
  | .run => Bytes
  | .text => String
  | .name => MessageHeader
  | .map => MapHeader
  | .list => ListHeader

def read : (part : Sized) → WireM part.Result
  | .run => WireM.readBytes
  | .text => WireM.readText
  | .name => WireM.readMessageBegin
  | .map => WireM.readMapBegin
  | .list => WireM.readListBegin

def size : (part : Sized) → part.Result → Nat
  | .run, bytes => bytes.length
  | .text, content => (Utf8.encode content).length
  | .name, header => (Utf8.encode header.name).length
  | .map, header => header.size
  | .list, header => header.size

def limit (limits : Limits) : Sized → Nat
  | .run | .text | .name => limits.text
  | .map | .list => limits.container

/-- Octets that are taken behind a size: those that it counts, the kind and the number of a message, the shapes in a
map. -/
def room : Sized → Nat → Nat
  | .run, n | .text, n => n
  | .name, n => n + 5
  | .map, _ => 1
  | .list, _ => 0

/-- The most octets that announce a size: the first two of a compact message and two numbers. -/
def lead : Nat := 12

end Sized

namespace Binary
open Endpoint

private theorem yields_i32 : Yields readI32 4 fun taken value => taken = Format.binary.i32 value := by
  refine (yields_onChannel 4 Bytes.toNat).bind (by decide : 4 + 0 ≤ 4) fun taken n h => .pure ?_
  obtain ⟨hlen, rfl⟩ := h
  have hlt : Bytes.toNat taken < 2 ^ 32 := by
    have := Bytes.toNat_lt taken
    rwa [hlen] at this
  have hback := Bytes.bigEndian_toNat taken
  rw [hlen] at hback
  rw [List.append_nil]
  simp only [Format.i32, UInt32.toUInt32_toInt32, UInt32.toNat_ofNat_of_lt' hlt, hback]

private theorem yields_tag : Yields readTag 1 fun taken tag => taken = [tag.toByte] := by
  refine yields_byte.bind (Nat.le_refl 1) fun taken byte h => (yields_decodeTag byte).mono fun rest tag htag => ?_
  rw [h, htag.1, htag.2, List.append_nil]

/-- The octets that announce a size: a word, behind the shapes of a container or the version of a message. A message
without a version starts with the size of its name. -/
inductive Announces (codec : Binary) : Sized → Bytes → Int32 → Prop where
  | run (size : Int32) : Announces codec .run (Format.binary.i32 size) size
  | text (size : Int32) : Announces codec .text (Format.binary.i32 size) size
  | versioned (word size : Int32) {kind : MessageKind} (hneg : word < 0)
      (hversion : word.toUInt32 &&& versionMask = version)
      (hkind : MessageKind.ofByte? word.toUInt32.toUInt8 = some kind) :
      Announces codec .name (Format.binary.i32 word ++ Format.binary.i32 size) size
  | bare (size : Int32) (hstrict : codec.strict = false) (hsize : ¬size < 0) :
      Announces codec .name (Format.binary.i32 size) size
  | map (key value : Tag) (size : Int32) :
      Announces codec .map (key.toByte :: value.toByte :: Format.binary.i32 size) size
  | list (elem : Tag) (size : Int32) : Announces codec .list (elem.toByte :: Format.binary.i32 size) size

private theorem readSize_eq (limit : Nat) : readSize limit = readI32 >>= judgeSize limit := by
  simp only [funext (judgeSize_eq limit)]
  rfl

private theorem readsSized_size (codec : Binary) (limit : Nat) :
    ReadsSized codec (readSize limit) (fun front size => front = Format.binary.i32 size) limit id (fun _ => 0) 4 := by
  rw [readSize_eq]
  exact .after yields_i32 (by decide : 4 + 0 ≤ 4) fun taken size h => .judge (by rw [h, List.append_nil])

private theorem refuses_size (codec : Binary) {limit : Nat} {size : Int32} {err : WireError}
    (h : sizeFlaw limit size = some err) : Refuses codec (readSize limit) (Format.binary.i32 size) err := by
  rw [readSize_eq]
  exact .ending (reads_i32 codec size) (.judge h)

variable (codec : Binary)

private theorem readsSized_run : ReadsSized codec readBytes (fun front size => front = Format.binary.i32 size)
    codec.limits.text List.length id 4 :=
  .get fun _ => (readsSized_size codec _).run

private theorem readsSized_text : ReadsSized codec readText (fun front size => front = Format.binary.i32 size)
    codec.limits.text (fun text => (Utf8.encode text).length) id 4 :=
  (readsSized_run codec).text

/-- What follows the size of a name where no version is given. -/
def readBareName (length : Nat) : M MessageHeader := do
  let name ← decodeText (← onChannel (Channel.read length))
  let kind ← decodeKind (← Endpoint.readByte)
  return ⟨name, kind, ← readI32⟩

private theorem yields_bareName (length : Nat) : Yields (readBareName length) (length + 5) fun _ header =>
    Sized.size .name header = length := by
  refine (yields_bytes length).bind (Nat.le_refl _) fun _ bytes hlen => ?_
  refine (yields_decodeText bytes).bind (by decide : 0 + 5 ≤ 5) fun _ name hname => ?_
  refine yields_byte.bind (by decide : 1 + 4 ≤ 5) fun _ byte _ => ?_
  refine (yields_decodeKind byte).bind (by decide : 0 + 4 ≤ 4) fun _ kind _ => yields_i32.map fun _ _ _ => ?_
  rw [← hlen, ← hname]
  rfl

private theorem readsSized_messageBegin :
    ReadsSized codec readMessageBegin (codec.Announces .name) codec.limits.text
    (Sized.size .name) (Sized.room .name) 8 := by
  refine .after yields_i32 (by decide : 4 + 4 ≤ 8) fun taken word htaken => .get fun _ => ?_
  refine .ite (fun hneg => .ite (fun _ => .throw _) fun hversion => ?_) fun hneg =>
    .ite (fun _ => .throw _) fun hstrict => ?_
  · refine .after (yields_decodeKind _) (by decide : 0 + 4 ≤ 4) fun none kind hkind => ?_
    have hnumber (name : String) : Yields (do return (⟨name, kind, ← readI32⟩ : MessageHeader)) 4 fun _ header =>
        Sized.size .name header = (Utf8.encode name).length := yields_i32.map fun _ _ _ => rfl
    have hname := (readsSized_text codec).before (fun _ => 4) hnumber fun n => Nat.le_refl (n + 4)
    refine hname.mono ?_ (fun n => Nat.le_succ (n + 4)) (Nat.le_refl 4)
    rintro _ size rfl
    rw [htaken, hkind.1]
    exact .versioned word size hneg (Decidable.not_not.mp hversion) hkind.2
  · change ReadsSized codec (do
      checkLimit word.toInt.toNat codec.limits.text
      readBareName word.toInt.toNat) _ _ _ _ _
    rw [checkLimit_then hneg]
    refine (ReadsSized.judge ?_).before (· + 5) yields_bareName fun n => Nat.le_of_eq (Nat.zero_add _)
    rw [htaken, List.append_nil]
    exact .bare word (Bool.eq_false_iff.mpr hstrict) hneg

private theorem readsSized_mapBegin :
    ReadsSized codec readMapBegin (codec.Announces .map) codec.limits.container
    (Sized.size .map) (Sized.room .map) 6 := by
  refine .after yields_tag (by decide : 1 + 5 ≤ 6) fun taken key hkey => ?_
  refine .after yields_tag (by decide : 1 + 4 ≤ 5) fun more value hvalue => .get fun _ => ?_
  refine ((readsSized_size codec _).map (MapHeader.mk key value) fun _ => rfl).mono ?_ (fun _ => Nat.zero_le 1)
    (Nat.le_refl 4)
  rintro _ size rfl
  rw [hkey, hvalue]
  exact .map key value size

private theorem readsSized_listBegin :
    ReadsSized codec readListBegin (codec.Announces .list) codec.limits.container
    (Sized.size .list) (Sized.room .list) 5 := by
  refine .after yields_tag (by decide : 1 + 4 ≤ 5) fun taken elem helem => .get fun _ => ?_
  refine ((readsSized_size codec _).map (ListHeader.mk elem) fun _ => rfl).mono ?_ (fun _ => Nat.le_refl 0)
    (Nat.le_refl 4)
  rintro _ size rfl
  rw [helem]
  exact .list elem size

private theorem refuses_run {size : Int32} {err : WireError} (h : sizeFlaw codec.limits.text size = some err) :
    Refuses codec readBytes (Format.binary.i32 size) err :=
  .get fun _ => (refuses_size codec h).first

private theorem refuses_text {size : Int32} {err : WireError} (h : sizeFlaw codec.limits.text size = some err) :
    Refuses codec readText (Format.binary.i32 size) err :=
  (refuses_run codec h).first

/-- Whatever is announced with a size that is refused, is refused. -/
theorem refuses_messageBegin {front : Bytes} {size : Int32} {err : WireError}
    (hfront : codec.Announces .name front size) (h : sizeFlaw codec.limits.text size = some err) :
    Refuses codec readMessageBegin front err := by
  cases hfront with
  | versioned word _ hneg hversion hkind =>
    refine .after (reads_i32 codec word) (.get fun _ => ?_)
    simp only [hneg, if_true, hversion, ne_eq, not_true_eq_false, if_false, decodeKind, hkind, pure_bind]
    exact (refuses_text codec h).first
  | bare _ hstrict hsize =>
    refine .ending (reads_i32 codec size) (.get fun _ => ?_)
    simp only [hsize, hstrict, if_false]
    change Refuses codec (do
      checkLimit size.toInt.toNat codec.limits.text
      readBareName size.toInt.toNat) _ _
    rw [checkLimit_then hsize]
    exact (Refuses.judge h).first

private theorem refuses_mapBegin {front : Bytes} {size : Int32} {err : WireError}
    (hfront : codec.Announces .map front size)
    (h : sizeFlaw codec.limits.container size = some err) : Refuses codec readMapBegin front err := by
  cases hfront with
  | map key value =>
    exact .after (reads_tag codec key) (.after (reads_tag codec value) (.get fun _ => (refuses_size codec h).first))

private theorem refuses_listBegin {front : Bytes} {size : Int32} {err : WireError}
    (hfront : codec.Announces .list front size)
    (h : sizeFlaw codec.limits.container size = some err) : Refuses codec readListBegin front err := by
  cases hfront with
  | list elem => exact .after (reads_tag codec elem) (.get fun _ => (refuses_size codec h).first)

end Binary

namespace Compact
open Endpoint

structure Spells (taken : Bytes) (n : UInt32) : Prop where
  ended : Varint.Ended taken
  length_le : taken.length ≤ 5
  value : Varint.value taken = n.toNat

theorem ReadsNumber.yields {α β : Type} {most : Nat} {made : Bytes → Option β} {see : α → β} {act : M α}
    (h : ReadsNumber most made see act) : Yields act most fun taken value =>
      Varint.Ended taken ∧ taken.length ≤ most ∧ made taken = some (see value) := by
  intro codec channel
  generalize hact : act ⟨codec, channel⟩ = result
  have hread := h codec channel
  rw [hact] at hread
  cases hread with
  | made hended hlen hpass hmade => exact ⟨_, _, hpass.1, hlen, .inl ⟨_, rfl, hended, hlen, hmade⟩⟩
  | refused _ hlen hpass _ => exact ⟨_, _, hpass.1, hlen, .inr ⟨_, rfl⟩⟩
  | long _ hlen hpass => exact ⟨_, _, hpass.1, Nat.le_of_eq hlen, .inr ⟨_, rfl⟩⟩
  | @short taken middle last err _ hlen hpass _ hread =>
    have hfail : Endpoint.readByte ⟨codec, middle⟩ = .error err ⟨codec, last⟩ := channel_error hread
    obtain ⟨more, last, hmore, hlen', ⟨byte, hok, -⟩ | ⟨err, herr⟩⟩ := yields_byte codec middle
    · cases hok.symm.trans hfail
    · cases herr.symm.trans hfail
      exact ⟨taken ++ more, last, hpass.1.trans hmore, by rw [List.length_append]; omega, .inr ⟨err, rfl⟩⟩

private theorem yields_varint32 : Yields readVarint32 5 Spells := by
  refine readsNumber_varint32.yields.mono fun taken word h => ⟨h.1, h.2.1, ?_⟩
  have hmade := h.2.2
  split at hmade
  · exact Option.some.inj hmade
  · cases hmade

/-- Where the octets of a number are held, it is read. -/
theorem reads_spelled (codec : Compact) {taken : Bytes} {n : UInt32} (h : Spells taken n) :
    Reads codec readVarint32 taken n codec := by
  intro channel base rest later hs
  obtain ⟨last, hlast, ⟨value, hread, hmade⟩ | ⟨flaw, hread, hmade⟩⟩ :=
    readsNumber_varint32.of_ended codec h.ended h.length_le hs
  · rw [h.value, if_pos n.toNat_lt] at hmade
    rw [UInt32.toNat_inj.mp (Option.some.inj hmade)]
    exact ⟨last, hread, hlast⟩
  · rw [h.value, if_pos n.toNat_lt] at hmade
    cases hmade

private theorem yields_decodeNibble (nibble : UInt8) :
    Yields (decodeNibble nibble) 0 fun taken tag => taken = [] ∧ tagOfNibble nibble = some tag := by
  rw [decodeNibble]
  split
  · exact .throw _
  · next htag => exact .pure ⟨rfl, htag⟩

/-- The octets that announce a size: a number, or half of the octet that names the shape of a list. -/
inductive Announces : Sized → Bytes → Int32 → Prop where
  | run {front : Bytes} {size : Int32} (h : Spells front size.toUInt32) : Announces .run front size
  | text {front : Bytes} {size : Int32} (h : Spells front size.toUInt32) : Announces .text front size
  | name {second : UInt8} {version : CompactVersion} {kind : MessageKind} {number front : Bytes} {seqId : UInt32}
      {size : Int32} (hversion : CompactVersion.ofByte? (second &&& versionMask) = some version)
      (hkind : MessageKind.ofByte? (second >>> 5) = some kind) (hnumber : Spells number seqId)
      (h : Spells front size.toUInt32) : Announces .name (mark :: second :: (number ++ front)) size
  | map {front : Bytes} {size : Int32} (h : Spells front size.toUInt32) : Announces .map front size
  | short {byte : UInt8} {elem : Tag} (helem : tagOfNibble (byte &&& 0x0f) = some elem)
      (hshort : (byte >>> 4).toNat ≠ 15) : Announces .list [byte] (Int32.ofNat (byte >>> 4).toNat)
  | long {byte : UInt8} {elem : Tag} {front : Bytes} {size : Int32} (helem : tagOfNibble (byte &&& 0x0f) = some elem)
      (hlong : (byte >>> 4).toNat = 15) (h : Spells front size.toUInt32) : Announces .list (byte :: front) size

/-- Words above the largest size are the negative numbers. -/
theorem toInt32_cases (word : UInt32) : maxSize < word.toNat ∧ word.toInt32 < 0 ∨
    word.toNat ≤ maxSize ∧ ¬word.toInt32 < 0 ∧ word.toInt32.toInt.toNat = word.toNat := by
  have hlt := word.toNat_lt
  have hint : word.toInt32.toInt = (word.toNat : Int).bmod (2 ^ 32) := by
    rw [← UInt32.toNat_toBitVec, ← BitVec.toInt_eq_toNat_bmod]
    rfl
  have hzero : (0 : Int32).toInt = 0 := rfl
  rw [Int32.lt_iff_toInt_lt, hint, hzero, Int.bmod_def, maxSize]
  split_ifs <;> omega

private theorem readSize_eq (limit : Nat) :
    readSize limit = readVarint32 >>= fun word => judgeSize limit word.toInt32 := by
  refine congrArg (readVarint32 >>= ·) (funext fun word => ?_)
  rw [judgeSize_eq]
  rcases toInt32_cases word with ⟨habove, hneg⟩ | ⟨hle, hnonneg, hsame⟩
  · rw [if_pos hneg, if_pos habove]
    rfl
  · rw [if_neg hnonneg, if_neg (Nat.not_lt.mpr hle), hsame]

/-- The half of an octet is a size that is not negative. -/
theorem ofNat_half (byte : UInt8) :
    ¬Int32.ofNat (byte >>> 4).toNat < 0 ∧ (Int32.ofNat (byte >>> 4).toNat).toInt.toNat = (byte >>> 4).toNat := by
  have hlt := (byte >>> 4).toNat_lt
  have hint : (Int32.ofNat (byte >>> 4).toNat).toInt = (byte >>> 4).toNat := Int32.toInt_ofNat_of_lt (by omega)
  have hzero : (0 : Int32).toInt = 0 := rfl
  rw [Int32.lt_iff_toInt_lt, hint, hzero]
  omega

private theorem checkLimit_half {α : Type} (limit : Nat) (byte : UInt8) (next : Nat → M α) : (do
    checkLimit (byte >>> 4).toNat limit
    next (byte >>> 4).toNat) = judgeSize limit (Int32.ofNat (byte >>> 4).toNat) >>= next := by
  obtain ⟨hnonneg, hsame⟩ := ofNat_half byte
  rw [← checkLimit_then hnonneg, hsame]

variable (codec : Compact)

private theorem readsSized_size (limit : Nat) :
    ReadsSized codec (readSize limit) (fun front size => Spells front size.toUInt32) limit id (fun _ => 0) 5 := by
  rw [readSize_eq]
  refine .after yields_varint32 (by decide : 5 + 0 ≤ 5) fun taken word h => .judge ?_
  rwa [List.append_nil, UInt32.toUInt32_toInt32]

private theorem refuses_size {limit : Nat} {front : Bytes} {size : Int32} {err : WireError}
    (hfront : Spells front size.toUInt32) (h : sizeFlaw limit size = some err) :
    Refuses codec (readSize limit) front err := by
  rw [readSize_eq]
  refine .ending (reads_spelled codec hfront) ?_
  rw [Int32.toInt32_toUInt32]
  exact .judge h

private theorem readsSized_run :
    ReadsSized codec readBytes (fun front size => Spells front size.toUInt32) codec.limits.text
    List.length id 5 :=
  .get fun _ => (readsSized_size codec _).run

private theorem readsSized_text :
    ReadsSized codec readText (fun front size => Spells front size.toUInt32) codec.limits.text
    (fun text => (Utf8.encode text).length) id 5 :=
  (readsSized_run codec).text

private theorem readsSized_messageRest {second : UInt8} {version : CompactVersion}
    (hversion : CompactVersion.ofByte? (second &&& versionMask) = some version) :
    ReadsSized codec (readMessageRest second) (fun front => Announces .name (mark :: second :: front)) codec.limits.text
      (Sized.size .name) (Sized.room .name) 10 := by
  refine .after (yields_decodeKind _) (by decide : 0 + 10 ≤ 10) fun none kind hkind => ?_
  refine .after yields_varint32 (by decide : 5 + 5 ≤ 10) fun number seqId hnumber => ?_
  refine ((readsSized_text codec).map (fun name => (⟨name, kind, seqId.toInt32⟩ : MessageHeader)) fun _ => rfl).mono
    (fun front size hfront => ?_) (fun n => Nat.le_add_right n 5) (Nat.le_refl 5)
  rw [hkind.1, List.nil_append]
  exact .name hversion hkind.2 hnumber hfront

private theorem readsSized_messageBegin : ReadsSized codec readMessageBegin (Announces .name) codec.limits.text
    (Sized.size .name) (Sized.room .name) Sized.lead := by
  refine .after Endpoint.yields_byte (by decide : 1 + 11 ≤ Sized.lead) fun _ first hfirst => ?_
  refine .ite (fun _ => .throw _) fun hmark => ?_
  refine .after Endpoint.yields_byte (by decide : 1 + 10 ≤ 11) fun _ second hsecond => ?_
  rw [hfirst, hsecond, Decidable.not_not.mp hmark]
  split
  · exact .throw _
  · next version hversion =>
    exact fun channel => readsSized_messageRest { codec with version } hversion channel

private theorem readsSized_mapBegin :
    ReadsSized codec readMapBegin (Announces .map) codec.limits.container (Sized.size .map)
    (Sized.room .map) 5 := by
  refine .get fun _ => ((readsSized_size codec _).before (fun _ => 1) (fun size => ?_) fun _ => Nat.le_refl 1).mono
    (fun _ _ h => .map h) (fun _ => Nat.le_refl 1) (Nat.le_refl 5)
  split
  · next hzero => exact .pure hzero.symm
  · refine Endpoint.yields_byte.bind (by decide : 1 + 0 ≤ 1) fun _ tags _ => ?_
    refine (yields_decodeNibble _).bind (by decide : 0 + 0 ≤ 0) fun _ key _ => ?_
    exact (yields_decodeNibble _).map fun _ _ _ => rfl

private theorem readsSized_listBegin : ReadsSized codec readListBegin (Announces .list) codec.limits.container
    (Sized.size .list) (Sized.room .list) 6 := by
  refine .after Endpoint.yields_byte (by decide : 1 + 5 ≤ 6) fun _ byte hbyte => ?_
  refine .after (yields_decodeNibble _) (by decide : 0 + 5 ≤ 5) fun _ elem helem => .get fun _ => ?_
  rw [hbyte, helem.1]
  refine .ite (fun hlong => ?_) fun hshort => ?_
  · exact ((readsSized_size codec _).map (ListHeader.mk elem) fun _ => rfl).mono (fun _ _ h => .long helem.2 hlong h)
      (fun _ => Nat.le_refl 0) (Nat.le_refl 5)
  · change ReadsSized codec (do
      checkLimit (byte >>> 4).toNat codec.limits.container
      return ListHeader.mk elem (byte >>> 4).toNat) _ _ _ _ _
    rw [checkLimit_half _ byte fun n => pure (ListHeader.mk elem n)]
    exact (ReadsSized.judge (.short helem.2 hshort)).map (ListHeader.mk elem) fun _ => rfl

private theorem refuses_run {front : Bytes} {size : Int32} {err : WireError}
    (hfront : Spells front size.toUInt32)
    (h : sizeFlaw codec.limits.text size = some err) : Refuses codec readBytes front err :=
  .get fun _ => (refuses_size codec hfront h).first

private theorem refuses_text {front : Bytes} {size : Int32} {err : WireError}
    (hfront : Spells front size.toUInt32)
    (h : sizeFlaw codec.limits.text size = some err) : Refuses codec readText front err :=
  (refuses_run codec hfront h).first

private theorem refuses_messageBegin {front : Bytes} {size : Int32} {err : WireError}
    (hfront : Announces .name front size)
    (h : sizeFlaw codec.limits.text size = some err) : Refuses codec readMessageBegin front err := by
  cases hfront with
  | @name second version kind number front seqId _ hversion hkind hnumber hspells =>
    refine .after (Endpoint.reads_byte codec mark) ?_
    rw [if_neg (not_not.mpr rfl)]
    refine .after (Endpoint.reads_byte codec second) ?_
    simp only [hversion, decodeKind, hkind, pure_bind]
    refine .opening (reads_onCodec codec _) (.after (reads_spelled _ hnumber) ?_)
    exact (refuses_text { codec with version } hspells h).first

private theorem refuses_mapBegin {front : Bytes} {size : Int32} {err : WireError}
    (hfront : Announces .map front size)
    (h : sizeFlaw codec.limits.container size = some err) : Refuses codec readMapBegin front err := by
  cases hfront with
  | map hfront => exact .get fun _ => (refuses_size codec hfront h).first

private theorem refuses_listBegin {front : Bytes} {size : Int32} {err : WireError}
    (hfront : Announces .list front size)
    (h : sizeFlaw codec.limits.container size = some err) : Refuses codec readListBegin front err := by
  cases hfront with
  | @short byte elem helem hshort =>
    refine .ending (Endpoint.reads_byte codec byte) (.after (reads_decodeNibble codec helem) (.get fun _ => ?_))
    rw [if_neg hshort]
    change Refuses codec (do
      checkLimit (byte >>> 4).toNat codec.limits.container
      return ListHeader.mk elem (byte >>> 4).toNat) _ _
    rw [checkLimit_half _ byte fun n => pure (ListHeader.mk elem n)]
    exact (Refuses.judge h).first
  | @long byte elem rest _ helem hlong hspells =>
    refine .after (Endpoint.reads_byte codec byte) (.after (reads_decodeNibble codec helem) (.get fun _ => ?_))
    rw [if_pos hlong]
    exact (refuses_size codec hspells h).first

end Compact

/-! ## Either codec -/

namespace Codec

def Announces : Codec → Sized → Bytes → Int32 → Prop
  | .binary codec => codec.Announces
  | .compact _ => Compact.Announces

end Codec

namespace Sized

/-- Whatever comes, a part is read as the size in front of it says, or is refused for it. -/
theorem readsSized (part : Sized) (codec : Codec) : ReadsSized codec part.read (codec.Announces part)
    (part.limit codec.limits) part.size part.room lead := by
  cases codec with
  | binary codec =>
    have hword {Announces : Bytes → Int32 → Prop} (h : ∀ size, Announces (Format.binary.i32 size) size) :
        ∀ front size, front = Format.binary.i32 size → Announces front size := by
      rintro _ size rfl
      exact h size
    cases part with
    | run => exact (codec.readsSized_run.binary _).mono (hword .run) (fun _ => Nat.le_refl _) (by decide)
    | text => exact (codec.readsSized_text.binary _).mono (hword .text) (fun _ => Nat.le_refl _) (by decide)
    | name => exact (codec.readsSized_messageBegin.binary _).longer (by decide)
    | map => exact (codec.readsSized_mapBegin.binary _).longer (by decide)
    | list => exact (codec.readsSized_listBegin.binary _).longer (by decide)
  | compact codec =>
    cases part with
    | run => exact (codec.readsSized_run.compact _).mono (fun _ _ => .run) (fun _ => Nat.le_refl _) (by decide)
    | text => exact (codec.readsSized_text.compact _).mono (fun _ _ => .text) (fun _ => Nat.le_refl _) (by decide)
    | name => exact codec.readsSized_messageBegin.compact _
    | map => exact (codec.readsSized_mapBegin.compact _).longer (by decide)
    | list => exact (codec.readsSized_listBegin.compact _).longer (by decide)

/-- Where a size is announced that is refused, it is refused. -/
theorem refuses {part : Sized} {codec : Codec} {front : Bytes} {size : Int32} {err : WireError}
    (hfront : codec.Announces part front size) (h : Endpoint.sizeFlaw (part.limit codec.limits) size = some err) :
    Refuses codec part.read front err := by
  cases codec with
  | binary codec =>
    cases part with
    | run =>
      cases hfront with
      | run => exact (codec.refuses_run h).binary _
    | text =>
      cases hfront with
      | text => exact (codec.refuses_text h).binary _
    | name => exact (codec.refuses_messageBegin hfront h).binary _
    | map => exact (codec.refuses_mapBegin hfront h).binary _
    | list => exact (codec.refuses_listBegin hfront h).binary _
  | compact codec =>
    cases part with
    | run =>
      cases hfront with
      | run hfront => exact (codec.refuses_run hfront h).compact _
    | text =>
      cases hfront with
      | text hfront => exact (codec.refuses_text hfront h).compact _
    | name => exact (codec.refuses_messageBegin hfront h).compact _
    | map => exact (codec.refuses_mapBegin hfront h).compact _
    | list => exact (codec.refuses_listBegin hfront h).compact _

end Sized
end RpcWire
