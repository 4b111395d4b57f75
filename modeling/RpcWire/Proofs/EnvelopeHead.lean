import RpcWire.Proofs.Numbers
import RpcWire.Proofs.Steps
import RpcWire.Transport.Enveloped

/-! The head of an envelope is read back as it was written: flags, sequence number, encoding and headers. -/
namespace RpcWire.EnvelopeHead

def taking (sent head : EnvelopeHead) : EnvelopeHead :=
  { head with
    encoding := .ofWire sent.encoding.toWire
    seqId := sent.seqId
    flags := sent.flags
    incoming := .ofList sent.onceEntries
    incomingLasting := head.incomingLasting.insertMany sent.outgoingLasting.entries
    peerIdentity := (Headers.ofList sent.onceEntries).get? identityName }

/-- Whether the head can be written: its block of headers has a size that an envelope can tell. -/
def Fits (head : EnvelopeHead) : Prop := head.encodeBlock.length / 4 ≤ maxWords

/-- From one head to the other, the action takes exactly the octets and gives the result. -/
def Scans {α : Type} (head : EnvelopeHead) (act : ScanM α) (bytes : Bytes) (result : α)
    (head' : EnvelopeHead) : Prop :=
  ∀ rest, act ⟨bytes ++ rest, head⟩ = .ok result ⟨rest, head'⟩

namespace Scans
variable {α β : Type} {act : ScanM α} {bytes more : Bytes} {value : α} {result : β}
  {head head' head'' : EnvelopeHead}

private theorem pure (head : EnvelopeHead) (value : α) : Scans head (pure value) [] value head :=
  fun _ => rfl

private theorem bind {next : α → ScanM β} (h : Scans head act bytes value head')
    (h' : Scans head' (next value) more result head'') : Scans head (act >>= next) (bytes ++ more) result head'' := by
  intro rest
  rw [List.append_assoc, bind_of_ok (h (more ++ rest))]
  exact h' rest

private theorem ending {next : α → ScanM β} (h : Scans head act bytes value head')
    (h' : Scans head' (next value) [] result head'') : Scans head (act >>= next) bytes result head'' := by
  have hall := h.bind h'
  rwa [List.append_nil] at hall

private theorem after {next : α → ScanM β} (h : Scans head act [] value head')
    (h' : Scans head' (next value) bytes result head'') : Scans head (act >>= next) bytes result head'' :=
  h.bind h'

end Scans

namespace Scan
variable (head : EnvelopeHead)

private theorem scans_byte (byte : UInt8) : Scans head Scan.byte [byte] byte head :=
  fun _ => rfl

private theorem scans_groups {most n : Nat} (h : (Varint.encode n).length ≤ most) :
    Scans head (groups most) (Varint.encode n) (Varint.encode n) head := by
  induction most generalizing n with
  | zero => exact absurd (Varint.length_encode_pos n) (by omega)
  | succ most ih =>
    rw [groups]
    rw [Varint.encode] at h ⊢
    split
    · next hlt =>
      apply (scans_byte head _).ending
      rw [Varint.continues_ofNat hlt]
      exact Scans.pure head _
    · next hge =>
      rw [if_neg hge, List.length_cons] at h
      apply (scans_byte head _).bind
      rw [Varint.continues_group]
      exact (ih (Nat.le_of_succ_le_succ h)).ending (Scans.pure head _)

private theorem scans_varint {n : Nat} (h : n < 2 ^ 32) :
    Scans head varint (Varint.encode n) (UInt32.ofNat n) head := by
  have hlen : (Varint.encode n).length ≤ 5 := Varint.length_encode_le (by decide) (by omega)
  apply (scans_groups head hlen).ending
  rw [Varint.value_encode]
  exact Scans.pure head _

private theorem scans_text {text : String} (h : (Utf8.encode text).length < 2 ^ 32) :
    Scans head Scan.text (encodeText text) text head := by
  apply (scans_varint head h).bind
  intro rest
  have hlen : (UInt32.ofNat (Utf8.encode text).length).toNat = (Utf8.encode text).length :=
    UInt32.toNat_ofNat_of_lt' h
  have hle : ¬(Utf8.encode text ++ rest).length < (Utf8.encode text).length := by simp
  simp only [hlen, bind, EStateM.bind, get_ok, hle, if_false, set_ok, List.take_left, List.drop_left,
    Utf8.decode?_encode, pure, EStateM.pure]

/-- Headers are kept one after the other. -/
theorem scans_entries {keep : EnvelopeHead → String → String → EnvelopeHead} {list : List (String × String)}
    (h : ∀ entry ∈ list, (Utf8.encode entry.1).length < 2 ^ 32 ∧ (Utf8.encode entry.2).length < 2 ^ 32) :
    Scans head (entries keep list.length) (list.flatMap fun entry => encodeText entry.1 ++ encodeText entry.2) ()
      (list.foldl (fun head entry => keep head entry.1 entry.2) head) := by
  induction list generalizing head with
  | nil => exact Scans.pure head ()
  | cons entry rest ih =>
    obtain ⟨⟨hname, hvalue⟩, hrest⟩ := List.forall_mem_cons.mp h
    rw [List.flatMap_cons, List.append_assoc, List.foldl_cons]
    refine (scans_text head hname).bind ((scans_text head hvalue).bind ?_)
    exact Scans.after (fun _ => rfl) (ih _ hrest)

/-- What a run of headers tells, where there is one. -/
theorem runs_run {keep : EnvelopeHead → String → String → EnvelopeHead} {kind : Nat}
    (hkind : kind = infoOnce ∧ keep = keepOnce ∨ kind = infoLasting ∧ keep = keepLasting)
    {list : List (String × String)} {rest : Bytes} {most : Nat} (hcount : list.length < 2 ^ 32)
    (h : ∀ entry ∈ list, (Utf8.encode entry.1).length < 2 ^ 32 ∧ (Utf8.encode entry.2).length < 2 ^ 32)
    (hmost : (encodeRun kind list ++ rest).length ≤ most) :
    ∃ left, rest.length ≤ left ∧ runs most ⟨encodeRun kind list ++ rest, head⟩ =
      runs left ⟨rest, list.foldl (fun head entry => keep head entry.1 entry.2) head⟩ := by
  by_cases hempty : list = []
  · subst hempty
    exact ⟨most, by simpa [encodeRun] using hmost, rfl⟩
  · have hlt : kind < 2 ^ 32 := by
      rcases hkind with ⟨rfl, -⟩ | ⟨rfl, -⟩ <;> decide
    have hrun : encodeRun kind list = Varint.encode kind ++ (Varint.encode list.length ++
        list.flatMap fun entry => encodeText entry.1 ++ encodeText entry.2) := by
      rw [encodeRun, if_neg hempty, List.append_assoc]
    have hpos := Varint.length_encode_pos kind
    have hne : encodeRun kind list ++ rest ≠ [] := by
      rw [hrun, ← List.length_pos_iff]
      simp only [List.length_append]
      omega
    obtain ⟨left, rfl⟩ : ∃ left, most = left + 1 := by
      refine Nat.exists_eq_add_one_of_ne_zero fun hz => hne ?_
      rw [← List.length_eq_zero_iff]
      omega
    refine ⟨left, ?_, ?_⟩
    · rw [hrun] at hmost
      simp only [List.length_append] at hmost
      omega
    · have hkind' : (UInt32.ofNat kind).toNat = kind := UInt32.toNat_ofNat_of_lt' hlt
      have hcount' : (UInt32.ofNat list.length).toNat = list.length := UInt32.toNat_ofNat_of_lt' hcount
      rw [runs, bind_of_ok (get_ok _), if_neg hne, hrun, List.append_assoc, List.append_assoc,
        bind_of_ok (scans_varint head hlt _), hkind']
      rcases hkind with ⟨rfl, rfl⟩ | ⟨rfl, rfl⟩
      · rw [if_pos rfl, bind_of_ok (scans_varint head hcount _), hcount',
          bind_of_ok (scans_entries head h rest)]
      · rw [if_neg (by decide), if_pos rfl, bind_of_ok (scans_varint head hcount _), hcount',
          bind_of_ok (scans_entries head h rest)]

/-- Padding ends the runs of headers. -/
theorem runs_padding {count most : Nat} (h : count ≤ most) :
    ∃ rest, runs most ⟨List.replicate count 0, head⟩ = .ok () ⟨rest, head⟩ := by
  cases most with
  | zero => exact ⟨_, rfl⟩
  | succ most =>
    cases count with
    | zero =>
      refine ⟨[], ?_⟩
      rw [runs, bind_of_ok (get_ok _)]
      rfl
    | succ count =>
      have hzero : (0 : UInt8) :: List.replicate count 0 = Varint.encode 0 ++ List.replicate count 0 := by
        rw [Varint.encode]
        rfl
      refine ⟨List.replicate count 0, ?_⟩
      rw [runs, bind_of_ok (get_ok _), List.replicate_succ, if_neg (List.cons_ne_nil _ _), hzero,
        bind_of_ok (scans_varint head (by decide) _)]
      rfl

private theorem foldl_keepOnce (list : List (String × String)) :
    list.foldl (fun head entry => keepOnce head entry.1 entry.2) head =
      { head with incoming := head.incoming.insertMany list } := by
  induction list generalizing head with
  | nil => rfl
  | cons entry rest ih =>
    rw [List.foldl_cons, ih]
    rfl

private theorem foldl_keepLasting (list : List (String × String)) :
    list.foldl (fun head entry => keepLasting head entry.1 entry.2) head =
      { head with incomingLasting := head.incomingLasting.insertMany list } := by
  induction list generalizing head with
  | nil => rfl
  | cons entry rest ih =>
    rw [List.foldl_cons, ih]
    rfl

end Scan

/-- What stands in a run of headers is no longer than the run. -/
theorem length_le_encodeRun (kind : Nat) (list : List (String × String)) :
    list.length ≤ (encodeRun kind list).length ∧ ∀ entry ∈ list,
      (Utf8.encode entry.1).length ≤ (encodeRun kind list).length ∧
        (Utf8.encode entry.2).length ≤ (encodeRun kind list).length := by
  have hall : list.length ≤ (list.flatMap fun entry => encodeText entry.1 ++ encodeText entry.2).length ∧
      ∀ entry ∈ list, (Utf8.encode entry.1).length ≤
          (list.flatMap fun entry => encodeText entry.1 ++ encodeText entry.2).length ∧
        (Utf8.encode entry.2).length ≤
          (list.flatMap fun entry => encodeText entry.1 ++ encodeText entry.2).length := by
    induction list with
    | nil => simp
    | cons entry rest ih =>
      have := Varint.length_encode_pos (Utf8.encode entry.1).length
      obtain ⟨hlen, hrest⟩ := ih
      simp only [List.flatMap_cons, List.length_append, encodeText, List.length_cons] at *
      refine ⟨by omega, List.forall_mem_cons.mpr ⟨by omega, fun other hm => ?_⟩⟩
      have := hrest other hm
      omega
  by_cases hempty : list = []
  · subst hempty
    simp
  · rw [encodeRun, if_neg hempty]
    simp only [List.length_append] at *
    refine ⟨by omega, fun entry hm => ?_⟩
    have := hall.2 entry hm
    omega

/-- The block of headers ends where the runs of headers do, but for at most three zeros. -/
theorem length_encodeBlock (head : EnvelopeHead) : head.encodeBlock.length % 4 = 0 ∧
    (encodeRun infoOnce head.onceEntries).length ≤ head.encodeBlock.length ∧
    (encodeRun infoLasting head.outgoingLasting.entries).length ≤ head.encodeBlock.length := by
  simp only [encodeBlock, pad, List.length_append, List.length_replicate]
  omega

/-- Both runs of headers, and what follows them in the block. -/
theorem Scan.runs_encoded {sent : EnvelopeHead} (h : sent.Fits) (head : EnvelopeHead) (zeros : Nat) :
    let bytes := encodeRun infoOnce sent.onceEntries ++
      (encodeRun infoLasting sent.outgoingLasting.entries ++ List.replicate zeros 0)
    ∃ rest, runs bytes.length ⟨bytes, { head with incoming := ∅ }⟩ = .ok () ⟨rest, { head with
      incoming := .ofList sent.onceEntries
      incomingLasting := head.incomingLasting.insertMany sent.outgoingLasting.entries }⟩ := by
  obtain ⟨-, honce, hlasting⟩ := sent.length_encodeBlock
  have hbound : sent.encodeBlock.length < 2 ^ 32 := by
    have : sent.encodeBlock.length / 4 ≤ 65535 := h
    omega
  obtain ⟨hcount, htexts⟩ := length_le_encodeRun infoOnce sent.onceEntries
  obtain ⟨hcount', htexts'⟩ := length_le_encodeRun infoLasting sent.outgoingLasting.entries
  obtain ⟨left, hleft, hfirst⟩ := runs_run { head with incoming := ∅ } (.inl ⟨rfl, rfl⟩)
    (by omega : sent.onceEntries.length < 2 ^ 32) (fun entry hm => by have := htexts entry hm; omega)
    (Nat.le_refl (encodeRun infoOnce sent.onceEntries ++
      (encodeRun infoLasting sent.outgoingLasting.entries ++ List.replicate zeros 0)).length)
  obtain ⟨left', hleft', hsecond⟩ := runs_run { head with incoming := .ofList sent.onceEntries } (.inr ⟨rfl, rfl⟩)
    (by omega : sent.outgoingLasting.entries.length < 2 ^ 32)
    (fun entry hm => by have := htexts' entry hm; omega) hleft
  obtain ⟨rest, hpadding⟩ := runs_padding { head with
    incoming := .ofList sent.onceEntries
    incomingLasting := head.incomingLasting.insertMany sent.outgoingLasting.entries }
    (by simpa using hleft' : zeros ≤ left')
  rw [foldl_keepOnce] at hfirst
  rw [foldl_keepLasting] at hsecond
  exact ⟨rest, (hfirst.trans hsecond).trans hpadding⟩

private theorem exists_pad (bytes : Bytes) : ∃ zeros, pad bytes = bytes ++ List.replicate zeros 0 :=
  ⟨_, rfl⟩

/-- The block of headers tells what the head that wrote it says. -/
theorem decodeBlock_encodeBlock {sent : EnvelopeHead} (h : sent.Fits) (head : EnvelopeHead) :
    decodeBlock sent.encodeBlock head =
      .ok () { sent.taking head with flags := head.flags, seqId := head.seqId } := by
  obtain ⟨zeros, hpad⟩ := exists_pad (Varint.encode sent.encoding.toWire.toNat ++ Varint.encode 0 ++
    encodeRun infoOnce sent.onceEntries ++ encodeRun infoLasting sent.outgoingLasting.entries)
  obtain ⟨rest, hruns⟩ := Scan.runs_encoded h { head with encoding := .ofWire sent.encoding.toWire } zeros
  have hencoding := Scan.scans_varint head sent.encoding.toWire.toNat_lt
  have htransforms := Scan.scans_varint { head with encoding := .ofWire sent.encoding.toWire }
    (by decide : 0 < 2 ^ 32)
  have hblock : Scan.block ⟨sent.encodeBlock, head⟩ =
      .ok () ⟨rest, { sent.taking head with flags := head.flags, seqId := head.seqId }⟩ := by
    rw [encodeBlock, hpad]
    simp only [List.append_assoc]
    rw [Scan.block, bind_of_ok (hencoding _), UInt32.ofNat_toNat]
    apply (bind_of_ok rfl).trans
    apply (bind_of_ok (htransforms _)).trans
    apply (bind_of_ok rfl).trans
    apply (bind_of_ok hruns).trans
    rfl
  rw [decodeBlock, hblock]

@[simp] theorem length_encodeFixed (head : EnvelopeHead) (words : Nat) :
    (head.encodeFixed words).length = fixedSize := by
  simp [encodeFixed, fixedSize]

/-- The parts of an envelope stand where a reader looks for them. -/
theorem parts_encodeFixed (head : EnvelopeHead) (words : Nat) (rest : Bytes) :
    let frame := head.encodeFixed words ++ rest
    frame.take 2 = Bytes.bigEndian 2 magic.toNat ∧ (frame.drop 2).take 2 = Bytes.bigEndian 2 head.flags.toNat ∧
      (frame.drop 4).take 4 = Bytes.bigEndian 4 head.seqId.toNat ∧
      (frame.drop 8).take 2 = Bytes.bigEndian 2 words ∧ frame.drop fixedSize = rest := by
  have hdrop (first second : Bytes) (m n : Nat) (h : first.length = m) :
      (first ++ second).drop (m + n) = second.drop n := by
    rw [← h, ← List.drop_drop, List.drop_left]
  have htake (first second : Bytes) (n : Nat) (h : first.length = n) : (first ++ second).take n = first :=
    List.take_left' h
  simp only [encodeFixed, List.append_assoc]
  refine ⟨htake _ _ 2 (by simp), ?_, ?_, ?_, ?_⟩
  · rw [hdrop _ _ 2 0 (by simp)]
    exact htake _ _ 2 (by simp)
  · rw [hdrop _ _ 2 2 (by simp), hdrop _ _ 2 0 (by simp)]
    exact htake _ _ 4 (by simp)
  · rw [hdrop _ _ 2 6 (by simp), hdrop _ _ 2 4 (by simp), hdrop _ _ 4 0 (by simp)]
    exact htake _ _ 2 (by simp)
  · rw [fixedSize, hdrop _ _ 2 8 (by simp), hdrop _ _ 2 6 (by simp), hdrop _ _ 4 2 (by simp), hdrop _ _ 2 0 (by simp)]
    rfl

/-- An envelope gives its payload, and tells what the head that wrote it says. -/
theorem accept_encode {sent : EnvelopeHead} (h : sent.Fits) (head : EnvelopeHead) (payload : Bytes) :
    accept (sent.encodeFixed (sent.encodeBlock.length / 4) ++ (sent.encodeBlock ++ payload)) head =
      .ok payload (sent.taking head) := by
  obtain ⟨hmagic, hflags, hseqId, hsize, hrest⟩ :=
    parts_encodeFixed sent (sent.encodeBlock.length / 4) (sent.encodeBlock ++ payload)
  have hwords : sent.encodeBlock.length / 4 < Nat.pow 256 2 := Nat.lt_of_le_of_lt h (by decide)
  have hlen : sent.encodeBlock.length / 4 * 4 = sent.encodeBlock.length := by
    have := sent.length_encodeBlock.1
    omega
  have hdecode := decodeBlock_encodeBlock h { head with flags := sent.flags, seqId := sent.seqId }
  have hfits : ¬(sent.encodeBlock ++ payload).length < sent.encodeBlock.length := by simp
  rw [accept]
  simp only [hmagic, hflags, hseqId, hsize, hrest, Bytes.word16, Bytes.word32, Bytes.toNat_bigEndian_of_lt hwords,
    hlen, hfits, ne_eq, not_true_eq_false, if_false, List.take_left, List.drop_left]
  exact (bind_of_ok rfl).trans ((bind_of_ok hdecode).trans rfl)

/-- The head with the flags and the number of an envelope, which are taken in before anything else is checked. -/
def numbered (frame : Bytes) (head : EnvelopeHead) : EnvelopeHead :=
  { head with
    flags := UInt16.ofNat (Bytes.toNat ((frame.drop 2).take 2))
    seqId := UInt32.ofNat (Bytes.toNat ((frame.drop 4).take 4)) }

def blockSize (frame : Bytes) : Nat := Bytes.toNat ((frame.drop 8).take 2) * 4

section
variable {frame payload : Bytes} {head after : EnvelopeHead}

theorem accept_of_mark (hmark : UInt16.ofNat (Bytes.toNat (frame.take 2)) = magic) :
    accept frame head =
      if (frame.drop fixedSize).length < blockSize frame then
        .error (.corruptHeader .headerBeyondEnvelope) (head.numbered frame)
      else match decodeBlock ((frame.drop fixedSize).take (blockSize frame)) (head.numbered frame) with
        | .ok () after => .ok ((frame.drop fixedSize).drop (blockSize frame)) after
        | .error err after => .error err after := by
  rw [accept, if_neg (not_not_intro hmark)]
  refine (bind_of_ok (modify_ok head _)).trans ?_
  dsimp only
  split
  · next hbeyond => exact (if_pos hbeyond).symm
  · next hwithin =>
    refine Eq.trans ?_ (if_neg hwithin).symm
    cases hblock : decodeBlock ((frame.drop fixedSize).take (blockSize frame)) (head.numbered frame) with
    | ok _ after => exact bind_of_ok hblock
    | error err after => exact bind_of_error hblock

/-- An envelope is accepted exactly if its mark is right and its block of headers lies within it and can be read. Its
payload is then what stands behind the block. -/
theorem accept_eq_ok_iff :
    accept frame head = .ok payload after ↔
      UInt16.ofNat (Bytes.toNat (frame.take 2)) = magic ∧ blockSize frame ≤ (frame.drop fixedSize).length ∧
      decodeBlock ((frame.drop fixedSize).take (blockSize frame)) (head.numbered frame) = .ok () after ∧
      payload = frame.drop (fixedSize + blockSize frame) := by
  by_cases hmark : UInt16.ofNat (Bytes.toNat (frame.take 2)) = magic
  · rw [accept_of_mark hmark, ← List.drop_drop]
    by_cases hbeyond : (frame.drop fixedSize).length < blockSize frame
    · rw [if_pos hbeyond]
      exact ⟨nofun, fun h => absurd h.2.1 (Nat.not_le.mpr hbeyond)⟩
    · rw [if_neg hbeyond]
      cases decodeBlock ((frame.drop fixedSize).take (blockSize frame)) (head.numbered frame) with
      | ok _ last =>
        constructor
        · rintro ⟨⟩
          exact ⟨hmark, Nat.not_lt.mp hbeyond, rfl, rfl⟩
        · rintro ⟨-, -, ⟨⟩, rfl⟩
          rfl
      | error err last => exact ⟨nofun, fun h => nomatch h.2.2.1⟩
  · rw [accept, if_pos hmark]
    exact ⟨nofun, fun h => absurd h.1 hmark⟩

end

end RpcWire.EnvelopeHead
