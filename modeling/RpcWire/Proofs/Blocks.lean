import RpcWire.Proofs.Groups
import RpcWire.Proofs.EnvelopeHead
import RpcWire.Proofs.Tracking

/-! Numbers in the block of headers of an envelope. What a number has beyond 32 bits is cut off, so a block is read as
one who refused such numbers would read it, up to the first of them. -/
namespace RpcWire.EnvelopeHead

namespace Scan

/-- How reading a number ends: with the number of at most five octets, cut to 32 bits, or with a refusal where the
octets go on for too long or end too early. -/
inductive NumberRead (scan : Scan) : EStateM.Result FramingError Scan UInt32 → Prop where
  | taken {taken rest : Bytes} {value : UInt32} (hended : Varint.Ended taken) (hlen : taken.length ≤ 5)
      (hrest : scan.rest = taken ++ rest) (hvalue : value.toNat = Varint.value taken % 2 ^ 32) :
      NumberRead scan (.ok value { scan with rest })
  | long {taken rest : Bytes} (hgoing : Varint.Going taken) (hlen : taken.length = 5)
      (hrest : scan.rest = taken ++ rest) :
      NumberRead scan (.error (.corruptHeader .varintTooLong) { scan with rest })
  | short (hgoing : Varint.Going scan.rest) (hlen : scan.rest.length < 5) :
      NumberRead scan (.error (.corruptHeader .truncatedVarint) { scan with rest := [] })

/-- A block gives one number that has ended, or as many octets as it may have without an end, or ends itself. -/
theorem groups_cases (most : Nat) (scan : Scan) :
    (∃ taken rest, groups most scan = .ok taken { scan with rest } ∧ Varint.Ended taken ∧ taken.length ≤ most ∧
      scan.rest = taken ++ rest) ∨
    (∃ taken rest, groups most scan = .error (.corruptHeader .varintTooLong) { scan with rest } ∧ Varint.Going taken ∧
      taken.length = most ∧ scan.rest = taken ++ rest) ∨
    groups most scan = .error (.corruptHeader .truncatedVarint) { scan with rest := [] } ∧ Varint.Going scan.rest ∧
      scan.rest.length < most := by
  obtain ⟨bytes, head⟩ := scan
  induction most generalizing bytes with
  | zero => exact .inr (.inl ⟨[], bytes, rfl, Varint.going_nil, rfl, rfl⟩)
  | succ most ih =>
    cases bytes with
    | nil => exact .inr (.inr ⟨rfl, Varint.going_nil, Nat.succ_pos most⟩)
    | cons first bytes =>
      rw [groups, bind_of_ok (show byte ⟨first :: bytes, head⟩ = .ok first ⟨bytes, head⟩ from rfl)]
      cases hfirst : Varint.continues first with
      | false => exact .inl ⟨[first], bytes, rfl, .last hfirst, by simp, rfl⟩
      | true =>
        simp only [if_true]
        rcases ih bytes with ⟨taken, rest, hrun, hended, hlen, hrest⟩ | ⟨taken, rest, hrun, hgoing, hlen, hrest⟩ |
            ⟨hrun, hgoing, hlen⟩
        · left
          exact ⟨first :: taken, rest, bind_of_ok hrun, .more hfirst hended, Nat.succ_le_succ hlen, congrArg _ hrest⟩
        · right; left
          exact ⟨first :: taken, rest, bind_of_error hrun, hgoing.cons hfirst, congrArg _ hlen, congrArg _ hrest⟩
        · right; right
          exact ⟨bind_of_error hrun, hgoing.cons hfirst, Nat.succ_lt_succ hlen⟩

/-- A number that has ended in time is what a block gives. -/
theorem groups_of_ended {most : Nat} {scan : Scan} {taken rest : Bytes} (hended : Varint.Ended taken)
    (hlen : taken.length ≤ most) (hrest : scan.rest = taken ++ rest) :
    groups most scan = .ok taken { scan with rest } := by
  rcases groups_cases most scan with ⟨taken', rest', hrun, hended', -, hrest'⟩ |
      ⟨taken', rest', -, hgoing, hlen', hrest'⟩ | ⟨-, hgoing, -⟩
  · obtain rfl := hended.eq_of_append hended' (hrest.symm.trans hrest')
    rw [hrun, List.append_cancel_left (hrest'.symm.trans hrest)]
  · obtain ⟨more, rfl⟩ : taken <+: taken' :=
      List.prefix_of_prefix_length_le ⟨_, hrest.symm⟩ ⟨_, hrest'.symm⟩ (hlen'.symm ▸ hlen)
    exact absurd hgoing hended.not_going
  · exact absurd (hrest ▸ hgoing) hended.not_going

private theorem numberRead_varint (scan : Scan) : NumberRead scan (varint scan) := by
  rcases groups_cases 5 scan with ⟨taken, rest, hrun, hended, hlen, hrest⟩ | ⟨taken, rest, hrun, hgoing, hlen, hrest⟩ |
      ⟨hrun, hgoing, hlen⟩
  · rw [varint, bind_of_ok hrun]
    exact .taken hended hlen hrest UInt32.toNat_ofNat'
  · rw [varint, bind_of_error hrun]
    exact .long hgoing hlen hrest
  · rw [varint, bind_of_error hrun]
    exact .short hgoing hlen

/-! ## Reading with another reader of numbers -/

/-- A number of at most five octets, which must fit in 32 bits. -/
def exactVarint : ScanM UInt32 := do
  let taken ← groups 5
  if 2 ^ 32 ≤ Varint.value taken then throw (.corruptHeader .varintTooLong)
  return UInt32.ofNat (Varint.value taken)

def textOf (length : Nat) : ScanM String := do
  let scan ← get
  if scan.rest.length < length then throw (.corruptHeader .truncatedText)
  set { scan with rest := scan.rest.drop length }
  match Utf8.decode? (scan.rest.take length) with
  | none => throw (.corruptHeader .textNotUtf8)
  | some text => return text

section
variable (number : ScanM UInt32)

def textBy : ScanM String := do
  textOf (← number).toNat

def entriesBy (keep : EnvelopeHead → String → String → EnvelopeHead) : Nat → ScanM Unit
  | 0 => return
  | count + 1 => do
    let name ← textBy number
    let value ← textBy number
    modify fun scan => { scan with head := keep scan.head name value }
    entriesBy keep count

def runsBy : Nat → ScanM Unit
  | 0 => return
  | most + 1 => do
    if (← get).rest = [] then return
    let kind := (← number).toNat
    if kind = infoOnce then
      entriesBy number keepOnce (← number).toNat
      runsBy most
    else if kind = infoLasting then
      entriesBy number keepLasting (← number).toNat
      runsBy most

def headersBy : ScanM Unit := do
  modify fun scan => { scan with head := { scan.head with incoming := ∅ } }
  runsBy number (← get).rest.length
  modify fun scan =>
    { scan with head := { scan.head with peerIdentity := scan.head.incoming.get? identityName } }

def blockBy : ScanM Unit := do
  let encoding := Encoding.ofWire (← number)
  modify fun scan => { scan with head := { scan.head with encoding } }
  let transforms ← number
  if 0 < transforms then throw (.unsupportedTransform (← number))
  headersBy number

end

theorem textBy_varint : textBy varint = text := rfl

private theorem entriesBy_varint (keep : EnvelopeHead → String → String → EnvelopeHead) (count : Nat) :
    entriesBy varint keep count = entries keep count := by
  induction count with
  | zero => rfl
  | succ count ih => simp only [entriesBy, entries, textBy_varint, ih]

theorem runsBy_varint (most : Nat) : runsBy varint most = runs most := by
  induction most with
  | zero => rfl
  | succ most ih => simp only [runsBy, runs, entriesBy_varint, ih]

theorem blockBy_varint : blockBy varint = block := by
  simp only [blockBy, block, headersBy, runsBy_varint]

/-! ## Where the two readers part -/

def WideAhead (bytes : Bytes) : Prop :=
  ∃ taken rest, bytes = taken ++ rest ∧ Varint.Ended taken ∧ taken.length ≤ 5 ∧ 2 ^ 32 ≤ Varint.value taken

/-- A number is read as spelled unless there is more to it than 32 bits. -/
theorem varint_exact_iff (scan : Scan) : varint scan = exactVarint scan ↔ ¬WideAhead scan.rest := by
  constructor
  · rintro hsame ⟨taken, rest, hrest, hended, hlen, hwide⟩
    have hrun := groups_of_ended hended hlen hrest
    rw [varint, exactVarint, bind_of_ok hrun, bind_of_ok hrun, if_pos hwide] at hsame
    cases hsame
  · intro hnarrow
    rcases groups_cases 5 scan with ⟨taken, rest, hrun, hended, hlen, hrest⟩ | ⟨taken, rest, hrun, -⟩ | ⟨hrun, -⟩
    · have hnot : ¬2 ^ 32 ≤ Varint.value taken := fun hwide => hnarrow ⟨taken, rest, hrest, hended, hlen, hwide⟩
      rw [varint, exactVarint, bind_of_ok hrun, bind_of_ok hrun, if_neg hnot]
    · rw [varint, exactVarint, bind_of_error hrun, bind_of_error hrun]
    · rw [varint, exactVarint, bind_of_error hrun, bind_of_error hrun]

section
variable {α β : Type} {act exact : ScanM α} {scan : Scan}

def StopsWide (act : ScanM α) (scan : Scan) : Prop :=
  ∃ ahead last, act scan = .error (.corruptHeader .varintTooLong) last ∧ WideAhead ahead ∧ ahead <:+ scan.rest

/-- The first reader does what the second does, unless that one stops at a number of more than 32 bits. The second
reader takes from the front only. -/
structure Parts (act exact : ScanM α) : Prop where
  same : ∀ scan, act scan = exact scan ∨ StopsWide exact scan
  suffix : ∀ scan, (stateOf (exact scan)).rest <:+ scan.rest

namespace Parts

private theorem refl (h : ∀ scan, (stateOf (act scan)).rest <:+ scan.rest) :
    Parts act act := ⟨fun _ => .inl rfl, h⟩

private theorem pure (value : α) : Parts (Pure.pure value) (Pure.pure value) := refl fun _ => List.suffix_rfl

private theorem throw (err : FramingError) :
    Parts (throw err : ScanM α) (throw err) := refl fun _ => List.suffix_rfl

private theorem get : Parts get get := refl fun _ => List.suffix_rfl

private theorem modify (f : EnvelopeHead → EnvelopeHead) :
    Parts (modify fun scan => { scan with head := f scan.head })
      (modify fun scan => { scan with head := f scan.head }) :=
  refl fun _ => List.suffix_rfl

private theorem bind {next next' : α → ScanM β} (h : Parts act exact)
    (hnext : ∀ value, Parts (next value) (next' value)) :
    Parts (act >>= next) (exact >>= next') where
  same scan := by
    cases hrun : exact scan with
    | error err last =>
      rcases h.same scan with hsame | ⟨ahead, last', hstop, hwide⟩
      · left
        rw [bind_of_error (hsame.trans hrun), bind_of_error hrun]
      · exact .inr ⟨ahead, last', bind_of_error hstop, hwide⟩
    | ok value middle =>
      have hmiddle := h.suffix scan
      rw [hrun] at hmiddle
      rcases h.same scan with hsame | ⟨ahead, last', hstop, -⟩
      · rw [bind_of_ok (hsame.trans hrun), StopsWide, bind_of_ok hrun]
        rcases (hnext value).same middle with hrest | ⟨ahead, last, hstop, hwide, hsuffix⟩
        · exact .inl hrest
        · exact .inr ⟨ahead, last, hstop, hwide, hsuffix.trans hmiddle⟩
      · rw [hrun] at hstop
        cases hstop
  suffix scan := by
    have hmiddle := h.suffix scan
    cases hrun : exact scan with
    | error err last =>
      rw [hrun] at hmiddle
      rwa [bind_of_error hrun]
    | ok value middle =>
      rw [hrun] at hmiddle
      rw [bind_of_ok hrun]
      exact ((hnext value).suffix middle).trans hmiddle

private theorem ite {cond : Prop} [Decidable cond] {act' exact' : ScanM α} (h : Parts act exact)
    (h' : Parts act' exact') :
    Parts (if cond then act else act') (if cond then exact else exact') := by
  split
  · exact h
  · exact h'

end Parts
end

private theorem parts_varint : Parts varint exactVarint where
  same scan := by
    by_cases hahead : WideAhead scan.rest
    · have ⟨taken, rest, hrest, hended, hlen, hwide⟩ := hahead
      refine .inr ⟨scan.rest, { scan with rest }, ?_, hahead, List.suffix_rfl⟩
      rw [exactVarint, bind_of_ok (groups_of_ended hended hlen hrest), if_pos hwide]
      rfl
    · exact .inl ((varint_exact_iff scan).mpr hahead)
  suffix scan := by
    rcases groups_cases 5 scan with ⟨taken, rest, hrun, -, -, hrest⟩ | ⟨taken, rest, hrun, -, -, hrest⟩ | ⟨hrun, -⟩
    · rw [exactVarint, bind_of_ok hrun, hrest]
      split <;> exact List.suffix_append taken rest
    · rw [exactVarint, bind_of_error hrun, hrest]
      exact List.suffix_append taken rest
    · rw [exactVarint, bind_of_error hrun]
      exact List.nil_suffix

private theorem parts_textOf (length : Nat) : Parts (textOf length) (textOf length) := by
  refine .refl fun scan => ?_
  unfold textOf
  rw [bind_of_ok (get_ok scan)]
  by_cases hfew : scan.rest.length < length
  · rw [if_pos hfew]
    exact List.suffix_rfl
  · rw [if_neg hfew]
    dsimp only [bind, EStateM.bind, set_ok]
    cases Utf8.decode? (scan.rest.take length) <;> exact List.drop_suffix length scan.rest

section
variable {number number' : ScanM UInt32} (h : Parts number number')
include h

private theorem parts_textBy :
    Parts (textBy number) (textBy number') := h.bind fun length => parts_textOf length.toNat

private theorem parts_entriesBy (keep : EnvelopeHead → String → String → EnvelopeHead) (count : Nat) :
    Parts (entriesBy number keep count) (entriesBy number' keep count) := by
  induction count with
  | zero => exact .pure ()
  | succ count ih =>
    refine (parts_textBy h).bind fun name => (parts_textBy h).bind fun value => ?_
    exact (Parts.modify (keep · name value)).bind fun _ => ih

private theorem parts_runsBy (most : Nat) : Parts (runsBy number most) (runsBy number' most) := by
  induction most with
  | zero => exact .pure ()
  | succ most ih =>
    have hrun (keep : EnvelopeHead → String → String → EnvelopeHead) :
        Parts (do entriesBy number keep (← number).toNat; runsBy number most)
          (do entriesBy number' keep (← number').toNat; runsBy number' most) :=
      h.bind fun count => (parts_entriesBy h keep count.toNat).bind fun _ => ih
    exact Parts.get.bind fun scan => .ite (.pure ()) (h.bind fun kind =>
      .ite (hrun keepOnce) (.ite (hrun keepLasting) (.pure ())))

private theorem parts_headersBy : Parts (headersBy number) (headersBy number') :=
  Parts.bind (.modify fun head => { head with incoming := ∅ }) fun _ => Parts.get.bind fun _ =>
    (parts_runsBy h _).bind fun _ => .modify fun head => { head with peerIdentity := head.incoming.get? identityName }

private theorem parts_blockBy : Parts (blockBy number) (blockBy number') := by
  refine h.bind fun encoding => Parts.bind (.modify fun head => { head with encoding := .ofWire encoding }) fun _ =>
    h.bind fun transforms => ?_
  exact .ite (h.bind fun _ => (Parts.throw _).bind fun _ => parts_headersBy h) (parts_headersBy h)

end

end Scan

def decodeExactly (bytes : Bytes) : EStateM FramingError EnvelopeHead Unit := fun head =>
  match Scan.blockBy Scan.exactVarint ⟨bytes, head⟩ with
  | .ok () scan => .ok () scan.head
  | .error err scan => .error err scan.head

/-- Every number in a block is read from at most five octets and cut to 32 bits, so it is read as spelled unless there
is more to it than 32 bits. A block is taken in as if numbers were not cut, except where it contains such a number and
should be refused there. -/
theorem block_numbers_read (scan : Scan) (bytes : Bytes) (head : EnvelopeHead) :
    Scan.NumberRead scan (Scan.varint scan) ∧
    (Scan.varint scan = Scan.exactVarint scan ↔ ¬Scan.WideAhead scan.rest) ∧
    (decodeBlock bytes head = decodeExactly bytes head ∨
      ∃ front ahead head', bytes = front ++ ahead ∧ Scan.WideAhead ahead ∧
        decodeExactly bytes head = .error (.corruptHeader .varintTooLong) head') := by
  refine ⟨Scan.numberRead_varint scan, Scan.varint_exact_iff scan, ?_⟩
  have hparts := Scan.parts_blockBy Scan.parts_varint
  rw [Scan.blockBy_varint] at hparts
  rcases hparts.same ⟨bytes, head⟩ with hsame | ⟨ahead, last, hstop, hwide, front, hsuffix⟩
  · left
    cases hexact : Scan.blockBy Scan.exactVarint ⟨bytes, head⟩ <;>
      simp only [decodeBlock, decodeExactly, hsame, hexact]
  · right
    refine ⟨front, ahead, last.head, hsuffix.symm, hwide, ?_⟩
    rw [decodeExactly, hstop]

/-- A block that names the encoding `2 ^ 32 + 2`, and then no transform and no headers. -/
def wideBlock : Bytes := [0x82, 0x80, 0x80, 0x80, 0x10, 0, 0, 0]

/-- It is taken for one that names the compact encoding, which is 2, so numbers are not read as their octets spell
them. -/
theorem wideBlock_names_compact :
    Scan.varint ⟨wideBlock, {}⟩ = .ok 2 ⟨[0, 0, 0], {}⟩ ∧ Varint.value (wideBlock.take 5) = 2 ^ 32 + 2 ∧
      decodeBlock wideBlock {} = .ok () { encoding := .compact } ∧
      ¬∀ scan value last, Scan.varint scan = .ok value last →
        ∃ taken, Varint.Ended taken ∧ taken.length ≤ 5 ∧ scan.rest = taken ++ last.rest ∧
          value.toNat = Varint.value taken := by
  have hread : Scan.varint ⟨wideBlock, {}⟩ = .ok 2 ⟨[0, 0, 0], {}⟩ := rfl
  refine ⟨hread, by decide, rfl, fun hall => ?_⟩
  obtain ⟨taken, -, -, hrest, hvalue⟩ := hall _ _ _ hread
  have htaken : taken ++ [0, 0, 0] = wideBlock.take 5 ++ [0, 0, 0] := hrest.symm
  replace htaken := List.append_cancel_right htaken
  rw [htaken] at hvalue
  exact absurd hvalue (by decide)

end RpcWire.EnvelopeHead
