import RpcWire.Proofs.Arrival
import RpcWire.Proofs.Blocks

/-! Envelopes read by index. A reader that indexes checks each index, notes each turn of its loops, and for the rest
does what the reader of the octets left does. No index of it lies outside of the envelope, no loop of it has to be cut
short, and whatever counts and lengths a block of headers declares, the loops turn no more often than the block has
octets. -/
namespace RpcWire.Indexing

/-- How reading by index ends early. -/
inductive Stop (ε : Type) where
  /-- An index lies outside. -/
  | outside
  /-- A loop has reached its bound. -/
  | endless
  | failure (cause : ε)

/-- A place in a block of headers, the head it tells about, and how often the loops have turned so far. -/
structure Cursor where
  block : Bytes
  place : Nat := 0
  head : EnvelopeHead
  /-- Turns of the loop over the runs of headers, and of the loops over the headers of a run. -/
  rounds : Nat := 0
  /-- Turns of the loops over the octets of a number. -/
  turns : Nat := 0

abbrev CursorM := EStateM (Stop FramingError) Cursor

namespace Cursor

def left (cursor : Cursor) : Nat := cursor.block.length - cursor.place

def round : CursorM Unit := modify fun cursor => { cursor with rounds := cursor.rounds + 1 }

def octet : CursorM UInt8 := fun cursor =>
  match cursor.block[cursor.place]? with
  | none => .error .outside cursor
  | some octet => .ok octet { cursor with place := cursor.place + 1, turns := cursor.turns + 1 }

def take (count : Nat) : CursorM Bytes := fun cursor =>
  if cursor.place + count ≤ cursor.block.length then
    .ok ((cursor.block.drop cursor.place).take count) { cursor with place := cursor.place + count }
  else .error .outside cursor

def byte : CursorM UInt8 := do
  if (← get).left = 0 then throw (.failure (.corruptHeader .truncatedVarint))
  octet

def groups : Nat → CursorM Bytes
  | 0 => throw (.failure (.corruptHeader .varintTooLong))
  | most + 1 => do
    let first ← byte
    if Varint.continues first then
      return first :: (← groups most)
    return [first]

def varint : CursorM UInt32 := do
  return UInt32.ofNat (Varint.value (← groups 5))

def textOf (length : Nat) : CursorM String := do
  if (← get).left < length then throw (.failure (.corruptHeader .truncatedText))
  match Utf8.decode? (← take length) with
  | none => throw (.failure (.corruptHeader .textNotUtf8))
  | some text => return text

def text : CursorM String := do
  textOf (← varint).toNat

def entries (keep : EnvelopeHead → String → String → EnvelopeHead) : Nat → CursorM Unit
  | 0 => return
  | count + 1 => do
    round
    let name ← text
    let value ← text
    modify fun cursor => { cursor with head := keep cursor.head name value }
    entries keep count

/-- The runs of headers. To reach the bound with octets left is no end of the loop. -/
def runs : Nat → CursorM Unit
  | 0 => do
    if (← get).left = 0 then return
    throw .endless
  | most + 1 => do
    if (← get).left = 0 then return
    round
    let kind := (← varint).toNat
    if kind = EnvelopeHead.infoOnce then
      entries EnvelopeHead.Scan.keepOnce (← varint).toNat
      runs most
    else if kind = EnvelopeHead.infoLasting then
      entries EnvelopeHead.Scan.keepLasting (← varint).toNat
      runs most

def headers : CursorM Unit := do
  modify fun cursor => { cursor with head := { cursor.head with incoming := ∅ } }
  runs (← get).left
  modify fun cursor =>
    { cursor with head := { cursor.head with
      peerIdentity := cursor.head.incoming.get? EnvelopeHead.identityName } }

def readBlock : CursorM Unit := do
  let encoding := Encoding.ofWire (← varint)
  modify fun cursor => { cursor with head := { cursor.head with encoding } }
  let transforms ← varint
  if 0 < transforms then throw (.failure (.unsupportedTransform (← varint)))
  headers

end Cursor

structure Survey where
  size : Nat
  rounds : Nat
  turns : Nat

/-- Neither kind of loop has turned more often than the block has octets. -/
def Survey.Bounded (survey : Survey) : Prop := survey.rounds ≤ survey.size ∧ survey.turns ≤ survey.size

def Cursor.survey (cursor : Cursor) : Survey := ⟨cursor.block.length, cursor.rounds, cursor.turns⟩

structure Surveyed (σ : Type) where
  state : σ
  surveys : List Survey := []

abbrev SurveyM (ε σ : Type) := EStateM (Stop ε) (Surveyed σ)

def slice {ε σ : Type} (bytes : Bytes) (start count : Nat) : SurveyM ε σ Bytes :=
  if start + count ≤ bytes.length then pure ((bytes.drop start).take count) else throw .outside

def decodeBlock (block : Bytes) : SurveyM FramingError EnvelopeHead Unit := fun ⟨head, surveys⟩ =>
  match Cursor.readBlock { block, head } with
  | .ok () cursor => .ok () ⟨cursor.head, surveys ++ [cursor.survey]⟩
  | .error err cursor => .error err ⟨cursor.head, surveys ++ [cursor.survey]⟩

def accept (frame : Bytes) : SurveyM FramingError EnvelopeHead Bytes := do
  let mark := UInt16.ofNat (Bytes.toNat (← slice frame 0 2))
  if mark ≠ EnvelopeHead.magic then throw (.failure (.badMagic mark))
  let flags := UInt16.ofNat (Bytes.toNat (← slice frame 2 2))
  let seqId := UInt32.ofNat (Bytes.toNat (← slice frame 4 4))
  modify fun noted => { noted with state := { noted.state with flags, seqId } }
  let size := Bytes.toNat (← slice frame 8 2) * 4
  let start := EnvelopeHead.fixedSize
  if frame.length - start < size then throw (.failure (.corruptHeader .headerBeyondEnvelope))
  decodeBlock (← slice frame start size)
  slice frame (start + size) (frame.length - (start + size))

def Stop.framing : Stop FramingError → Stop WireError
  | .outside => .outside
  | .endless => .endless
  | .failure cause => .failure (.framing cause)

def load (length : UInt32) : SurveyM WireError Enveloped Unit := fun ⟨env, surveys⟩ =>
  if env.maxSize < length then .error (.failure (.framing (.tooLarge length.toNat env.maxSize))) ⟨env, surveys⟩
  else if length.toNat < EnvelopeHead.fixedSize then
    .error (.failure (.framing (.corruptHeader .shortEnvelope))) ⟨env, surveys⟩
  else match Stream.readFull length.toNat env.stream with
    | .error err stream => .error (.failure err) ⟨{ env with stream }, surveys⟩
    | .ok frame stream =>
      if frame.length < length.toNat then .error (.failure .envelopeCutShort) ⟨{ env with stream }, surveys⟩
      else match accept frame ⟨env.head, surveys⟩ with
        | .error err ⟨head, surveys⟩ => .error err.framing ⟨{ env with stream, head }, surveys⟩
        | .ok payload ⟨head, surveys⟩ => .ok () ⟨{ env with stream, head, payload }, surveys⟩

def awaitWithin : Nat → SurveyM WireError Enveloped Bool
  | 0 => fun noted => .error .endless noted
  | most + 1 => fun ⟨env, surveys⟩ =>
    if env.payload ≠ [] then .ok true ⟨env, surveys⟩ else
      match Stream.readLength env.stream with
      | .error err stream => .error (.failure err) ⟨{ env with stream }, surveys⟩
      | .ok none stream => .ok false ⟨{ env with stream }, surveys⟩
      | .ok (some length) stream => (do load length; awaitWithin most) ⟨{ env with stream }, surveys⟩

def read (n : Nat) : SurveyM WireError Enveloped Bytes := do
  if n = 0 then return []
  if !(← awaitWithin ((← get).state.stream.unread.length + 1)) then return []
  let payload := (← get).state.payload
  let size := min n payload.length
  let got ← slice payload 0 size
  let rest ← slice payload size (payload.length - size)
  modify fun noted => { noted with state := { noted.state with payload := rest } }
  return got

/-! ## What both readers do -/

section
open EnvelopeHead
variable {α β : Type} {spare room spare' room' spare'' room'' : Nat}

/-- Both readers are at one place, and tell about one head. Each turn of the loops over runs and headers has an octet of
its own in front of the place, and `spare` more octets stand there; `room` octets are left at the most. -/
structure Agrees (spare room : Nat) (cursor : Cursor) (scan : Scan) : Prop where
  rest : scan.rest = cursor.block.drop cursor.place
  head : scan.head = cursor.head
  inside : cursor.place ≤ cursor.block.length
  paid : cursor.rounds + spare ≤ cursor.place
  turns : cursor.turns ≤ cursor.place
  near : cursor.block.length ≤ cursor.place + room

namespace Agrees
variable {cursor : Cursor} {scan : Scan}

private theorem mono (h : Agrees spare room cursor scan) (hspare : spare' ≤ spare) (hroom : room ≤ room') :
    Agrees spare' room' cursor scan :=
  { h with paid := by have := h.paid; omega, near := by have := h.near; omega }

private theorem free (h : Agrees spare room cursor scan) : Agrees 0 cursor.block.length cursor scan :=
  { h with paid := by have := h.paid; omega, near := Nat.le_add_left _ _ }

private theorem left_eq (h : Agrees spare room cursor scan) : cursor.left = scan.rest.length := by
  rw [h.rest, List.length_drop, Cursor.left]

private theorem left_eq_zero_iff (h : Agrees spare room cursor scan) : cursor.left = 0 ↔ scan.rest = [] := by
  rw [h.left_eq, List.length_eq_zero_iff]

private theorem bounded (h : Agrees spare room cursor scan) : cursor.survey.Bounded := by
  have := h.inside
  have := h.paid
  have := h.turns
  constructor <;> simp only [Cursor.survey] <;> omega

end Agrees

/-- Both readers end alike, and neither with an index outside nor with a loop cut short. -/
inductive Alike (block : Bytes) (spare room : Nat) :
    EStateM.Result (Stop FramingError) Cursor α → EStateM.Result FramingError Scan α → Prop where
  | ok {cursor : Cursor} {scan : Scan} (value : α) (h : Agrees spare room cursor scan)
      (hblock : cursor.block = block) : Alike block spare room (.ok value cursor) (.ok value scan)
  | error {cursor : Cursor} {scan : Scan} (cause : FramingError) (h : Agrees 0 block.length cursor scan)
      (hblock : cursor.block = block) : Alike block spare room (.error (.failure cause) cursor) (.error cause scan)

def Mirrors (spare room : Nat) (act : CursorM α) (plain : ScanM α) (spare' room' : Nat) : Prop :=
  ∀ ⦃cursor : Cursor⦄ ⦃scan : Scan⦄, Agrees spare room cursor scan →
    Alike cursor.block spare' room' (act cursor) (plain scan)

namespace Mirrors
variable {act act' : CursorM α} {plain plain' : ScanM α}

private theorem pure (value : α) : Mirrors spare room (pure value) (pure value) spare room :=
  fun _ _ h => .ok value h rfl

private theorem throw (cause : FramingError) :
    Mirrors spare room (throw (.failure cause) : CursorM α) (throw cause) spare' room' :=
  fun _ _ h => .error cause h.free rfl

private theorem bind {next : α → CursorM β} {next' : α → ScanM β}
    (h : Mirrors spare room act plain spare' room')
    (hnext : ∀ value, Mirrors spare' room' (next value) (next' value) spare'' room'') :
    Mirrors spare room (act >>= next) (plain >>= next') spare'' room'' := by
  intro cursor scan hagrees
  have hfirst := h hagrees
  generalize hact : act cursor = acted, hplain : plain scan = scanned at hfirst
  cases hfirst with
  | ok value hafter hblock =>
    rw [bind_of_ok hact, bind_of_ok hplain, ← hblock]
    exact hnext value hafter
  | error cause hafter hblock =>
    rw [bind_of_error hact, bind_of_error hplain]
    exact .error cause hafter hblock

private theorem mono (h : Mirrors spare room act plain spare' room') (hspare : spare'' ≤ spare')
    (hroom : room' ≤ room'') :
    Mirrors spare room act plain spare'' room'' := by
  intro cursor scan hagrees
  have hends := h hagrees
  generalize act cursor = acted, plain scan = scanned at hends ⊢
  cases hends with
  | ok value hafter hblock => exact .ok value (hafter.mono hspare hroom) hblock
  | error cause hafter hblock => exact .error cause hafter hblock

private theorem modify (f : EnvelopeHead → EnvelopeHead) :
    Mirrors spare room (modify fun cursor => { cursor with head := f cursor.head })
      (modify fun scan => { scan with head := f scan.head }) spare room := by
  intro cursor scan h
  rw [modify_ok, modify_ok]
  exact .ok _ ⟨h.rest, congrArg f h.head, h.inside, h.paid, h.turns, h.near⟩ rfl

/-- A turn of a loop over runs or headers spends an octet. -/
theorem round (h : Mirrors spare room act plain spare' room') :
    Mirrors (spare + 1) room (Cursor.round >>= fun _ => act) plain spare' room' := by
  intro cursor scan hagrees
  have hpaid : cursor.rounds + 1 + spare ≤ cursor.place := by
    have := hagrees.paid
    omega
  exact @h { cursor with rounds := cursor.rounds + 1 } scan { hagrees with paid := hpaid }

private theorem ite {cond cond' : Prop} [Decidable cond] [Decidable cond'] (hcond : cond ↔ cond')
    (h : Mirrors spare room act plain spare' room') (h' : Mirrors spare room act' plain' spare' room') :
    Mirrors spare room (if cond then act else act') (if cond' then plain else plain') spare' room' := by
  by_cases hc : cond
  · rwa [if_pos hc, if_pos (hcond.mp hc)]
  · rwa [if_neg hc, if_neg (mt hcond.mpr hc)]

end Mirrors

private theorem mirrors_byte : Mirrors spare room Cursor.byte Scan.byte (spare + 1) (room - 1) := by
  intro cursor scan h
  have hrest := h.rest
  cases hscan : scan.rest with
  | nil =>
    have hplain : Scan.byte scan = .error (.corruptHeader .truncatedVarint) scan := by
      rw [Scan.byte, hscan]
    rw [hplain, Cursor.byte, bind_of_ok (get_ok cursor), if_pos (h.left_eq_zero_iff.mpr hscan)]
    exact .error _ h.free rfl
  | cons first rest =>
    rw [hscan] at hrest
    have hplain : Scan.byte scan = .ok first { scan with rest } := by
      rw [Scan.byte, hscan]
    have hlt : cursor.place < cursor.block.length := by
      have hlength := congrArg List.length hrest
      rw [List.length_drop, List.length_cons] at hlength
      omega
    rw [List.drop_eq_getElem_cons hlt] at hrest
    obtain ⟨hfirst, hrest⟩ := List.cons.inj hrest
    have hoctet : Cursor.octet cursor =
        .ok first { cursor with place := cursor.place + 1, turns := cursor.turns + 1 } := by
      rw [Cursor.octet, List.getElem?_eq_getElem hlt, ← hfirst]
    have hleft : cursor.left ≠ 0 := fun hzero => by simp [h.left_eq_zero_iff.mp hzero] at hscan
    have hbyte : Cursor.byte cursor =
        .ok first { cursor with place := cursor.place + 1, turns := cursor.turns + 1 } := by
      rw [Cursor.byte, bind_of_ok (get_ok cursor), if_neg hleft]
      exact hoctet
    rw [hplain, hbyte]
    have := h.paid
    have := h.near
    exact .ok first ⟨hrest, h.head, hlt, by dsimp only; omega, Nat.succ_le_succ h.turns, by dsimp only; omega⟩ rfl

private theorem mirrors_groups (most : Nat) :
    Mirrors spare room (Cursor.groups most) (Scan.groups most) (spare + 1) (room - 1) := by
  induction most generalizing spare room with
  | zero => exact .throw _
  | succ most ih =>
    refine mirrors_byte.bind fun first => .ite Iff.rfl ?_ (.pure _)
    exact (ih.bind fun more => .pure _).mono (by omega) (by omega)

private theorem mirrors_varint : Mirrors spare room Cursor.varint Scan.varint (spare + 1) (room - 1) :=
  (mirrors_groups 5).bind fun _ => .pure _

private theorem mirrors_textOf (length : Nat) :
    Mirrors spare room (Cursor.textOf length) (Scan.textOf length) spare room := by
  intro cursor scan h
  rw [Cursor.textOf, Scan.textOf, bind_of_ok (get_ok cursor), bind_of_ok (get_ok scan), h.left_eq]
  by_cases hfew : scan.rest.length < length
  · rw [if_pos hfew, if_pos hfew]
    exact .error _ h.free rfl
  · have hlength := h.left_eq
    rw [Cursor.left] at hlength
    have hle : cursor.place + length ≤ cursor.block.length := by
      have := h.inside
      omega
    have htake : Cursor.take length cursor =
        .ok (scan.rest.take length) { cursor with place := cursor.place + length } := by
      rw [Cursor.take, if_pos hle, h.rest]
    have hafter : Agrees spare room { cursor with place := cursor.place + length }
        { scan with rest := scan.rest.drop length } := by
      have := h.paid
      have := h.turns
      have := h.near
      refine ⟨?_, h.head, hle, by dsimp only; omega, by dsimp only; omega, by dsimp only; omega⟩
      rw [h.rest, List.drop_drop]
    rw [if_neg hfew, if_neg hfew]
    dsimp only
    rw [bind_of_ok htake, bind_of_ok (set_ok scan _)]
    cases Utf8.decode? (scan.rest.take length) with
    | none => exact .error _ hafter.free rfl
    | some text => exact .ok text hafter rfl

/-- A text takes at least the octet that begins its length. -/
theorem mirrors_text : Mirrors spare room Cursor.text Scan.text (spare + 1) room :=
  (mirrors_varint.bind fun length => mirrors_textOf length.toNat).mono (Nat.le_refl _) (by omega)

/-- A header pays for its turn with its name, and for the next one with its value. -/
theorem mirrors_entries (keep : EnvelopeHead → String → String → EnvelopeHead) (count : Nat) :
    Mirrors (spare + 1) room (Cursor.entries keep count) (Scan.entries keep count) (spare + 1) room := by
  induction count generalizing spare with
  | zero => exact .pure ()
  | succ count ih =>
    refine .round (mirrors_text.bind fun name => mirrors_text.bind fun value => ?_)
    exact (Mirrors.modify (keep · name value)).bind fun _ => ih.mono (Nat.le_succ _) (Nat.le_refl _)

/-- A run pays for its turn with its kind, and what is left after a turn is less than before. So the loop ends where the
block does, and not at its bound. -/
theorem mirrors_runs (most : Nat) :
    Mirrors (spare + 1) most (Cursor.runs most) (Scan.runs most) (spare + 1) most := by
  induction most with
  | zero =>
    intro cursor scan h
    have hleft : cursor.left = 0 := by
      have := h.near
      rw [Cursor.left]
      omega
    rw [Cursor.runs, bind_of_ok (get_ok cursor), if_pos hleft]
    exact .ok () h rfl
  | succ most ih =>
    have hrun (keep : EnvelopeHead → String → String → EnvelopeHead) :
        Mirrors (spare + 1) most (do Cursor.entries keep (← Cursor.varint).toNat; Cursor.runs most)
          (do Scan.entries keep (← Scan.varint).toNat; Scan.runs most) (spare + 1) most :=
      mirrors_varint.bind fun count => ((mirrors_entries keep count.toNat).mono (Nat.le_succ _) (by omega)).bind
        fun _ => ih
    intro cursor scan h
    rw [Cursor.runs, Scan.runs, bind_of_ok (get_ok cursor), bind_of_ok (get_ok scan)]
    refine Mirrors.ite h.left_eq_zero_iff (.pure ()) (.mono (.round (mirrors_varint.bind fun kind => ?_))
      (Nat.le_refl _) (Nat.le_succ _)) h
    exact .ite Iff.rfl (hrun Scan.keepOnce) (.ite Iff.rfl (hrun Scan.keepLasting) (.pure ()))

private theorem mirrors_headers (room : Nat) :
    Mirrors (spare + 1) room Cursor.headers (Scan.headersBy Scan.varint) 0 room := by
  refine Mirrors.bind (.modify fun head => { head with incoming := ∅ }) fun _ cursor scan h => ?_
  rw [bind_of_ok (get_ok cursor), bind_of_ok (get_ok scan), Scan.runsBy_varint, ← h.left_eq]
  have hleft : cursor.left ≤ room := by
    have := h.near
    rw [Cursor.left]
    omega
  have hexact : Agrees (spare + 1) cursor.left cursor scan := { h with near := by rw [Cursor.left]; omega }
  refine Mirrors.bind (((mirrors_runs cursor.left).mono (Nat.zero_le _) hleft)) (fun _ => ?_) hexact
  exact .modify fun head => { head with peerIdentity := head.incoming.get? identityName }

/-- The number of the encoding and that of the transforms pay in advance. -/
theorem mirrors_readBlock (room : Nat) : Mirrors 0 room Cursor.readBlock Scan.block 0 room := by
  rw [← Scan.blockBy_varint]
  refine mirrors_varint.bind fun encoding =>
    Mirrors.bind (.modify fun head => { head with encoding := .ofWire encoding }) fun _ =>
      mirrors_varint.bind fun transforms => ?_
  have hheaders : Mirrors 2 (room - 1 - 1) Cursor.headers (Scan.headersBy Scan.varint) 0 room :=
    (mirrors_headers _).mono (Nat.le_refl _) (by omega)
  exact .ite Iff.rfl (mirrors_varint.bind fun _ => .bind (.throw _) fun _ => hheaders) hheaders

end

/-! ## Envelopes -/

section
variable {ε σ α β : Type}

def noting (surveys : List Survey) : EStateM.Result ε σ α → EStateM.Result (Stop ε) (Surveyed σ) α
  | .ok value state => .ok value ⟨state, surveys⟩
  | .error cause state => .error (.failure cause) ⟨state, surveys⟩

/-- Both end alike, and in no block read on the way did the loops turn more often than the block has octets. -/
def Notes (surveys : List Survey) (ending : EStateM.Result (Stop ε) (Surveyed σ) α) (plain : EStateM.Result ε σ α) :
    Prop :=
  ∃ news, (∀ survey ∈ news, survey.Bounded) ∧ ending = noting (surveys ++ news) plain

/-- No block was read. -/
theorem Notes.none {surveys : List Survey} {ending : EStateM.Result (Stop ε) (Surveyed σ) α}
    {plain : EStateM.Result ε σ α} (h : ending = noting surveys plain) : Notes surveys ending plain :=
  ⟨[], List.forall_mem_nil _, by rw [List.append_nil, h]⟩

def Surveys (act : SurveyM ε σ α) (plain : EStateM ε σ α) (state : σ) : Prop :=
  ∀ surveys, Notes surveys (act ⟨state, surveys⟩) (plain state)

namespace Surveys
variable {act act' : SurveyM ε σ α} {plain plain' : EStateM ε σ α} {state : σ}

private theorem pure (value : α) : Surveys (pure value : SurveyM ε σ α) (pure value) state := fun _ => .none rfl

private theorem throw (cause : ε) :
    Surveys (throw (.failure cause) : SurveyM ε σ α) (throw cause) state := fun _ => .none rfl

private theorem bind {next : α → SurveyM ε σ β} {next' : α → EStateM ε σ β} (h : Surveys act plain state)
    (hnext : ∀ value after, plain state = .ok value after → Surveys (next value) (next' value) after) :
    Surveys (act >>= next) (plain >>= next') state := by
  intro surveys
  obtain ⟨news, hbounded, hact⟩ := h surveys
  cases hplain : plain state with
  | ok value after =>
    rw [hplain] at hact
    obtain ⟨others, hothers, hrest⟩ := hnext value after hplain (surveys ++ news)
    refine ⟨news ++ others, List.forall_mem_append.mpr ⟨hbounded, hothers⟩, ?_⟩
    rw [bind_of_ok hact, bind_of_ok hplain, hrest, List.append_assoc]
  | error cause after =>
    rw [hplain] at hact
    refine ⟨news, hbounded, ?_⟩
    rw [bind_of_error hact, bind_of_error hplain]
    rfl

private theorem ite {cond : Prop} [Decidable cond] (h : cond → Surveys act plain state)
    (h' : ¬cond → Surveys act' plain' state) :
    Surveys (if cond then act else act') (if cond then plain else plain') state := by
  by_cases hc : cond
  · rw [if_pos hc, if_pos hc]
    exact h hc
  · rw [if_neg hc, if_neg hc]
    exact h' hc

end Surveys

private theorem slice_then {bytes : Bytes} {start count : Nat} (h : start + count ≤ bytes.length)
    (next : Bytes → SurveyM ε σ β) : slice bytes start count >>= next = next ((bytes.drop start).take count) := by
  rw [slice, if_pos h, pure_bind]

end

private theorem surveys_decodeBlock (block : Bytes) (head : EnvelopeHead) :
    Surveys (decodeBlock block) (EnvelopeHead.decodeBlock block) head := by
  intro surveys
  have hstart : Agrees 0 block.length { block, head } ⟨block, head⟩ :=
    ⟨rfl, rfl, Nat.zero_le _, Nat.le_refl _, Nat.le_refl _, Nat.le_add_left _ _⟩
  have hends := mirrors_readBlock block.length hstart
  dsimp only [decodeBlock, EnvelopeHead.decodeBlock]
  generalize Cursor.readBlock { block, head } = read, EnvelopeHead.Scan.block ⟨block, head⟩ = plain at hends ⊢
  cases hends with
  | ok _ h _ => exact ⟨[_], List.forall_mem_singleton.mpr h.bounded, by rw [noting, h.head]⟩
  | error cause h _ => exact ⟨[_], List.forall_mem_singleton.mpr h.bounded, by rw [noting, h.head]⟩

/-- The fixed part is there, and so is the block of headers as soon as its size has been looked at. -/
theorem surveys_accept {frame : Bytes} (h : EnvelopeHead.fixedSize ≤ frame.length) (head : EnvelopeHead) :
    Surveys (accept frame) (EnvelopeHead.accept frame) head := by
  have hlong : 10 ≤ frame.length := h
  rw [accept, EnvelopeHead.accept, slice_then (by omega)]
  refine .ite (fun _ => .bind (.throw _) fun _ _ hr => by cases hr) fun _ => ?_
  rw [slice_then (by omega), slice_then (by omega)]
  refine .bind (fun _ => .none rfl) fun _ after _ => ?_
  rw [slice_then (by omega)]
  dsimp only
  rw [List.length_drop]
  generalize Bytes.toNat ((frame.drop 8).take 2) * 4 = size
  refine .ite (fun _ => .bind (.throw _) fun _ _ hr => by cases hr) fun hfits => ?_
  -- The size was checked against what is left behind the fixed part.
  have hblock : size ≤ frame.length - EnvelopeHead.fixedSize := Nat.not_lt.mp hfits
  have hrest : (frame.drop (EnvelopeHead.fixedSize + size)).take (frame.length - (EnvelopeHead.fixedSize + size)) =
      (frame.drop EnvelopeHead.fixedSize).drop size := by
    rw [List.take_of_length_le (Nat.le_of_eq List.length_drop), List.drop_drop]
  rw [slice_then (by omega)]
  refine .bind (surveys_decodeBlock _ after) fun _ last _ surveys => .none ?_
  rw [slice, if_pos (by omega), hrest]
  rfl

private theorem surveys_load (length : UInt32) (env : Enveloped) :
    Surveys (load length) (Enveloped.load length) env := by
  intro surveys
  rw [load, Enveloped.load]
  by_cases hlarge : env.maxSize < length
  · rw [if_pos hlarge, if_pos hlarge]
    exact .none rfl
  by_cases hshort : length.toNat < EnvelopeHead.fixedSize
  · rw [if_neg hlarge, if_neg hlarge, if_pos hshort, if_pos hshort]
    exact .none rfl
  rw [if_neg hlarge, if_neg hlarge, if_neg hshort, if_neg hshort]
  cases Stream.readFull length.toNat env.stream with
  | error err stream => exact .none rfl
  | ok frame stream =>
    dsimp only
    by_cases hcut : frame.length < length.toNat
    · rw [if_pos hcut, if_pos hcut]
      exact .none rfl
    · rw [if_neg hcut, if_neg hcut]
      have hlong : EnvelopeHead.fixedSize ≤ frame.length := by omega
      obtain ⟨news, hbounded, haccept⟩ := surveys_accept hlong env.head surveys
      refine ⟨news, hbounded, ?_⟩
      rw [haccept]
      cases EnvelopeHead.accept frame env.head with
      | ok payload head => rfl
      | error err head => rfl

/-- Each envelope takes octets of the stream, so the loop over envelopes ends before its bound. -/
theorem surveys_await {most : Nat} {env : Enveloped} (h : env.stream.unread.length < most) :
    Surveys (awaitWithin most) Enveloped.await env := by
  induction most generalizing env with
  | zero => exact absurd h (Nat.not_lt_zero _)
  | succ most ih =>
    intro surveys
    rw [awaitWithin]
    by_cases hinside : env.payload ≠ []
    · rw [Enveloped.await_inside hinside]
      exact .none (if_pos hinside)
    dsimp only
    rw [if_neg hinside, Enveloped.await_between (not_not.mp hinside)]
    cases hread : Stream.readLength env.stream with
    | error err stream => exact .none rfl
    | ok length stream =>
      cases length with
      | none => exact .none rfl
      | some length =>
        refine Surveys.bind (surveys_load length _) (fun _ after hload => ih ?_) surveys
        have hless := Stream.length_unread_readLength hread
        have := Enveloped.length_unread_load hload
        dsimp only at this
        omega

theorem surveys_read (n : Nat) (env : Enveloped) : Surveys (read n) (Enveloped.read n) env := by
  rw [read, Enveloped.read]
  refine .ite (fun _ => .pure []) fun _ surveys => ?_
  rw [bind_of_ok (get_ok _)]
  refine Surveys.bind (surveys_await (Nat.lt_succ_self _)) (fun more after _ => ?_) surveys
  cases more with
  | false => exact .pure []
  | true =>
    intro surveys
    obtain ⟨stream, maxSize, head, payload, pending⟩ := after
    have htake : (payload.drop 0).take (min n payload.length) = payload.take n := by
      rw [List.drop_zero]
      exact List.take_eq_take_min.symm
    have hdrop : (payload.drop (min n payload.length)).take (payload.length - min n payload.length) =
        payload.drop n := by
      rw [List.take_of_length_le (Nat.le_of_eq List.length_drop)]
      rcases Nat.le_total n payload.length with hle | hle
      · rw [Nat.min_eq_left hle]
      · rw [Nat.min_eq_right hle, List.drop_length, List.drop_of_length_le hle]
    refine .none ((bind_of_ok (get_ok _)).trans ?_)
    rw [slice_then (by omega), slice_then (by omega), htake, hdrop]
    rfl

end RpcWire.Indexing
