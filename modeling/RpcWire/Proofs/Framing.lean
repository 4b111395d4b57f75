import RpcWire.Proofs.Arrival
import RpcWire.Proofs.Cuts

/-! Everything that can be written through frames and read back: each flush sends what was accepted since the last
flush or refusal, and a reader gets these payloads piece by piece. -/
namespace RpcWire.Framed

inductive Act where
  | write (bytes : Bytes)
  | flush
  deriving DecidableEq

def Act.run : Act → FramedM Unit
  | .write bytes => Framed.write bytes
  | .flush => Framed.flush

structure Entry where
  act : Act
  refusal : Option WireError
  deriving DecidableEq

def Entry.accepts : Entry → Bool
  | ⟨.write _, none⟩ => true
  | _ => false

def Entry.bytes : Entry → Bytes
  | ⟨.write bytes, _⟩ => bytes
  | ⟨.flush, _⟩ => []

/-- The octets accepted since the last flush or refusal. The last entry comes first. -/
def gathered (past : List Entry) : Bytes :=
  (past.takeWhile Entry.accepts).reverse.flatMap Entry.bytes

/-- The payloads that the flushes should have sent: what had gathered by then, unless it was nothing. -/
def payloads : List Entry → List Bytes
  | [] => []
  | entry :: past =>
    payloads past ++ if entry.act = .flush then [gathered past].filter (· ≠ []) else []

/-- One act more. A refusal does not end the run. -/
def perform (act : Act) : List Entry × Framed → List Entry × Framed
  | (past, layer) =>
    match act.run layer with
    | .ok () after => (⟨act, none⟩ :: past, after)
    | .error err after => (⟨act, some err⟩ :: past, after)

def performAll (acts : List Act) (layer : Framed) : List Entry × Framed :=
  acts.foldl (fun state act => perform act state) ([], layer)

@[simp] theorem gathered_flush (refusal : Option WireError) (past : List Entry) :
    gathered (⟨.flush, refusal⟩ :: past) = [] := rfl

@[simp] theorem gathered_refused (act : Act) (err : WireError) (past : List Entry) :
    gathered (⟨act, some err⟩ :: past) = [] := by
  cases act <;> rfl

@[simp] theorem gathered_accepted (bytes : Bytes) (past : List Entry) :
    gathered (⟨.write bytes, none⟩ :: past) = gathered past ++ bytes := by
  simp only [gathered, List.takeWhile_cons_of_pos (show Entry.accepts ⟨.write bytes, none⟩ = true from rfl),
    List.reverse_cons, List.flatMap_append, List.flatMap_singleton]
  rfl

@[simp] theorem payloads_write (bytes : Bytes) (refusal : Option WireError) (past : List Entry) :
    payloads (⟨.write bytes, refusal⟩ :: past) = payloads past :=
  List.append_nil _

@[simp] theorem payloads_flush (refusal : Option WireError) (past : List Entry) :
    payloads (⟨.flush, refusal⟩ :: past) = payloads past ++ [gathered past].filter (· ≠ []) := rfl

/-- What a layer that started from `start` is after what its record tells. -/
structure Tells (start : Framed) (past : List Entry) (layer : Framed) : Prop where
  eq : layer = { start with
    pending := gathered past
    stream := { start.stream with written := start.stream.written ++ (payloads past).flatMap encode } }
  gathered_fits : (gathered past).length ≤ start.maxSize.toNat
  payloads_fit : ∀ payload ∈ payloads past, payload ≠ [] ∧ payload.length ≤ start.maxSize.toNat
  refusals : ∀ entry ∈ past, ∀ err, entry.refusal = some err → ∃ bytes size, entry.act = .write bytes ∧
    start.maxSize.toNat < size ∧ err = .framing (.tooLarge size start.maxSize)

private theorem Tells.refl {start : Framed} (hpending : start.pending = []) : Tells start [] start where
  eq := by
    obtain ⟨⟨unread, written, chunk, ending, limit⟩, maxSize, remaining, pending⟩ := start
    obtain rfl : pending = [] := hpending
    simp [payloads, gathered]
  gathered_fits := Nat.zero_le _
  payloads_fit := nofun
  refusals := nofun

/-- Where a stream takes everything, a flush sends what has gathered. -/
theorem flush_eq {layer : Framed} (hlimit : layer.stream.limit = none) :
    flush layer = .ok () { layer with
      pending := []
      stream := { layer.stream with
        written := layer.stream.written ++ ([layer.pending].filter (· ≠ [])).flatMap encode } } := by
  obtain ⟨⟨unread, written, chunk, ending, limit⟩, maxSize, remaining, pending⟩ := layer
  obtain rfl : limit = none := hlimit
  rw [flush, bind_of_ok (get_ok _)]
  by_cases hpending : pending = []
  · subst hpending
    simp [pure, EStateM.pure]
  · rw [if_neg hpending, bind_of_ok (set_ok _ _)]
    simp [onStream, onPart, Stream.write, hpending]

/-- One act more keeps layer and record together. -/
theorem Tells.perform {start layer : Framed} {past : List Entry} (hlimit : start.stream.limit = none)
    (h : Tells start past layer) (act : Act) :
    Tells start (perform act (past, layer)).1 (perform act (past, layer)).2 := by
  obtain ⟨rfl, hfits, hpayloads, hrefusals⟩ := h
  cases act with
  | write bytes =>
    simp only [Framed.perform, Act.run, write]
    by_cases hlarge : start.maxSize.toNat < (gathered past).length + bytes.length
    · simp only [if_pos hlarge]
      refine ⟨by simp, Nat.zero_le _, by simpa using hpayloads, List.forall_mem_cons.mpr ⟨?_, hrefusals⟩⟩
      rintro err ⟨⟩
      exact ⟨bytes, _, rfl, hlarge, rfl⟩
    · simp only [if_neg hlarge]
      refine ⟨by simp, ?_, by simpa using hpayloads, List.forall_mem_cons.mpr ⟨nofun, hrefusals⟩⟩
      rw [gathered_accepted, List.length_append]
      omega
  | flush =>
    have hflush := @flush_eq { start with
      pending := gathered past
      stream := { start.stream with written := start.stream.written ++ (payloads past).flatMap encode } } hlimit
    simp only [Framed.perform, Act.run, hflush]
    refine ⟨by simp, Nat.zero_le _, ?_, List.forall_mem_cons.mpr ⟨nofun, hrefusals⟩⟩
    intro payload hmem
    rcases List.mem_append.mp hmem with hmem | hmem
    · exact hpayloads payload hmem
    · obtain ⟨hone, hne⟩ := List.mem_filter.mp hmem
      obtain rfl := List.mem_singleton.mp hone
      exact ⟨by simpa using hne, hfits⟩

/-- Layer and record stay together through all acts. -/
theorem tells_performAll {start : Framed} (hpending : start.pending = []) (hlimit : start.stream.limit = none)
    (acts : List Act) : Tells start (performAll acts start).1 (performAll acts start).2 :=
  List.foldlRecOn (motive := fun state : List Entry × Framed => Tells start state.1 state.2) acts _ (.refl hpending)
    fun _ h act _ => h.perform hlimit act

/-- Blocks that a reader has ahead: what is left of the frame it is in, then the frames that are not empty. -/
def Ahead (blocks : List Bytes) (layer : Framed) : Prop :=
  ∃ rest frames, layer.remaining = rest.length ∧ layer.stream.unread = rest ++ frames.flatMap encode ∧
    (∀ frame ∈ frames, frame.length ≤ layer.maxSize.toNat) ∧ layer.stream.ending = none ∧
    blocks = (rest :: frames).filter (· ≠ [])

/-- Inside a frame, a read takes octets of what is left of it. -/
theorem read_inside {n : Nat} (hn : n ≠ 0) {rest later : Bytes} {layer : Framed}
    (hremaining : layer.remaining = rest.length) (h : layer.stream.unread = rest ++ later) (hrest : rest ≠ []) :
    ∃ got left, rest = got ++ left ∧ got ≠ [] ∧ got.length ≤ n ∧ read n layer = .ok got { layer with
      stream := { layer.stream with unread := left ++ later }, remaining := left.length } := by
  have hpos := List.length_pos_iff.mpr hrest
  have hunread : layer.stream.unread ≠ [] := by
    rw [h]
    exact List.append_ne_nil_of_left_ne_nil hrest later
  obtain ⟨got, left, hgot, hsmall, hsplit, hread⟩ :=
    Stream.read_front (by omega : 0 < min n layer.remaining) hunread
  rw [h] at hsplit
  obtain ⟨more, rfl, rfl⟩ : ∃ more, rest = got ++ more ∧ left = more ++ later := by
    rcases List.append_eq_append_iff.mp hsplit with ⟨more, rfl, hlater⟩ | ⟨more, hrest', hleft⟩
    · have hnone : more = [] := by
        rw [List.length_append] at hsmall
        exact List.length_eq_zero_iff.mp (by omega)
      subst hnone
      exact ⟨[], by simp, hlater.symm⟩
    · exact ⟨more, hrest', hleft⟩
  refine ⟨got, more, rfl, hgot, by omega, ?_⟩
  obtain ⟨first, others, rfl⟩ := List.exists_cons_of_ne_nil hgot
  have hleft : layer.remaining - (first :: others).length = more.length := by
    rw [hremaining, List.length_append]
    omega
  rw [read_eq (Nat.pos_of_ne_zero hn), await_inside (by omega)]
  simp only [hread, hleft]

/-- A read goes on over empty frames to the next one that has octets. -/
theorem read_enter {n : Nat} (hn : n ≠ 0) {empty : List Bytes} {block later : Bytes} {layer : Framed}
    (hempty : empty.flatten = []) (hremaining : layer.remaining = 0)
    (h : layer.stream.unread = empty.flatMap encode ++ (encode block ++ later))
    (hle : block.length ≤ layer.maxSize.toNat) :
    read n layer = read n { layer with
      stream := { layer.stream with unread := block ++ later }, remaining := block.length } := by
  have hover := await_over hempty hremaining h
  have hframe := @await_frame block later { layer with
    stream := { layer.stream with unread := encode block ++ later } } hremaining rfl hle
  rw [read_eq (Nat.pos_of_ne_zero hn), hover, hframe, ← read_eq (Nat.pos_of_ne_zero hn)]

private theorem blockReader_ahead : BlockReader read Ahead where
  idle _ := rfl
  ended := by
    rintro n layer hn ⟨rest, frames, hremaining, hunread, hfit, hend, hblocks⟩
    have hnone := List.filter_eq_nil_iff.mp hblocks.symm
    simp only [decide_eq_true_eq, Decidable.not_not, List.forall_mem_cons] at hnone
    obtain ⟨rfl, hframes⟩ := hnone
    have hread := read_end hn hremaining hunread (List.flatten_eq_nil_iff.mpr hframes) hend
    exact ⟨_, hread, [], [], hremaining, rfl, nofun, hend, rfl⟩
  piece := by
    rintro n block blocks layer hn ⟨rest, frames, hremaining, hunread, hfit, hend, hblocks⟩
    by_cases hrest : rest = []
    · -- Between frames, the block in turn is the next frame that is not empty.
      subst hrest
      obtain ⟨empty, later, rfl, hempty, hblock, rfl⟩ :=
        List.filter_eq_cons_iff.mp (show frames.filter (· ≠ []) = block :: blocks from hblocks.symm)
      simp only [decide_eq_true_eq, Decidable.not_not] at hempty hblock
      rw [List.nil_append, List.flatMap_append, List.flatMap_cons] at hunread
      obtain ⟨hle, hlater⟩ := List.forall_mem_cons.mp fun frame hm => hfit frame (List.mem_append_right empty hm)
      obtain ⟨got, left, hsplit, hgot, hsmall, hread⟩ := @read_inside n hn block (later.flatMap encode) { layer with
        stream := { layer.stream with unread := block ++ later.flatMap encode }, remaining := block.length } rfl rfl
        hblock
      rw [← read_enter hn (List.flatten_eq_nil_iff.mpr hempty) hremaining hunread hle] at hread
      exact ⟨got, left, _, hsplit, hgot, hsmall, hread, left, later, rfl, rfl, hlater, hend,
        (List.filter_append [left] later).symm⟩
    · have hone : (rest :: frames).filter (· ≠ []) = rest :: frames.filter (· ≠ []) :=
        List.filter_cons_of_pos (by simpa using hrest)
      obtain ⟨rfl, rfl⟩ := List.cons.inj (hblocks.trans hone)
      obtain ⟨got, left, hsplit, hgot, hsmall, hread⟩ := read_inside hn hremaining hunread hrest
      exact ⟨got, left, _, hsplit, hgot, hsmall, hread, left, frames, rfl, rfl, hfit, hend,
        (List.filter_append [left] frames).symm⟩

/-- Over a stream that takes everything, a layer writes nothing but whole frames. Their payloads are neither empty nor
too long, and each is what was accepted since the later of the last flush and the last refusal. Whoever takes frames so
long reads these payloads, wherever empty frames stand between them, and then meets the end. -/
theorem performAll_frames {start layer : Framed} {acts : List Act} {record : List Entry} (hpending : start.pending = [])
    (hlimit : start.stream.limit = none) (h : performAll acts start = (record, layer)) :
    layer.stream.written = start.stream.written ++ (payloads record).flatMap encode ∧
    (∀ payload ∈ payloads record, 1 ≤ payload.length ∧ payload.length ≤ start.maxSize.toNat ∧
      Bytes.toNat ((encode payload).take 4) = payload.length ∧ (encode payload).drop 4 = payload) ∧
    (∀ entry ∈ record, ∀ err, entry.refusal = some err → ∃ bytes size, entry.act = .write bytes ∧
      start.maxSize.toNat < size ∧ err = .framing (.tooLarge size start.maxSize)) ∧
    ∀ (frames : List Bytes) (reader : Framed) (sizes : List Nat), frames.filter (· ≠ []) = payloads record →
      start.maxSize ≤ reader.maxSize → reader.remaining = 0 → reader.stream.unread = frames.flatMap encode →
      reader.stream.ending = none → (∀ n ∈ sizes, n ≠ 0) →
      ∃ pieces after, sizes.mapM read reader = .ok pieces after ∧ Cuts (payloads record) sizes pieces ∧
        ((payloads record).flatten.length < sizes.length →
          pieces.flatten = (payloads record).flatten ∧ pieces.getLast? = some []) := by
  obtain ⟨heq, -, hpayloads, hrefusals⟩ := tells_performAll hpending hlimit acts
  simp only [h] at heq hpayloads hrefusals
  refine ⟨congrArg (·.stream.written) heq, fun payload hmem => ?_, hrefusals, ?_⟩
  · obtain ⟨hne, hle⟩ := hpayloads payload hmem
    have hword : payload.length < 256 ^ 4 := Nat.lt_of_le_of_lt hle start.maxSize.toNat_lt
    have hlen := Bytes.length_bigEndian 4 payload.length
    refine ⟨List.length_pos_iff.mpr hne, hle, ?_, ?_⟩
    · rw [encode, List.take_left' hlen, Bytes.toNat_bigEndian_of_lt hword]
    · rw [encode, List.drop_left' hlen]
  · intro frames reader sizes hframes hmax hremaining hunread hend hsizes
    have hfit : ∀ frame ∈ frames, frame.length ≤ reader.maxSize.toNat := by
      intro frame hmem
      by_cases hempty : frame = []
      · subst hempty
        exact Nat.zero_le _
      · have hsent : frame ∈ frames.filter (· ≠ []) := List.mem_filter.mpr ⟨hmem, by simpa using hempty⟩
        rw [hframes] at hsent
        exact Nat.le_trans (hpayloads frame hsent).2 hmax
    have hahead : Ahead (payloads record) reader := ⟨[], frames, hremaining, hunread, hfit, hend, hframes.symm⟩
    obtain ⟨pieces, left, after, hread, hcuts, -⟩ := blockReader_ahead.mapM sizes hahead
    exact ⟨pieces, after, hread, hcuts, hcuts.flatten_eq hsizes⟩

/-- Five octets are too many for frames of four, and two accepted before go with them. Of what is written then, the
first flush sends three octets, the second nothing, the third one. -/
theorem performAll_frames_refusal : ∃ record layer,
    performAll [.write [1, 2], .write [3, 4, 5], .write [6], .write [7, 8], .flush, .flush, .write [9], .flush]
      { stream := {}, maxSize := 4 } = (record, layer) ∧
    layer.stream.written = [0, 0, 0, 3, 6, 7, 8, 0, 0, 0, 1, 9] ∧
    ∃ pieces after, [2, 7, 1, 1, 5].mapM read
        { stream := { unread := [[], [6, 7, 8], [], [], [9], []].flatMap encode, chunk := some 2 }, maxSize := 5 } =
          .ok pieces after ∧
      Cuts [[6, 7, 8], [9]] [2, 7, 1, 1, 5] pieces ∧ pieces.flatten = [6, 7, 8, 9] := by
  obtain ⟨hwritten, -, -, hreads⟩ := @performAll_frames { stream := {}, maxSize := 4 } _
    [.write [1, 2], .write [3, 4, 5], .write [6], .write [7, 8], .flush, .flush, .write [9], .flush] _ rfl rfl rfl
  obtain ⟨pieces, after, hread, hcuts, hall⟩ := hreads [[], [6, 7, 8], [], [], [9], []]
    { stream := { unread := [[], [6, 7, 8], [], [], [9], []].flatMap encode, chunk := some 2 }, maxSize := 5 }
    [2, 7, 1, 1, 5] (by decide) (by decide) rfl rfl rfl (by decide)
  exact ⟨_, _, rfl, hwritten, pieces, after, hread, hcuts, (hall (by decide)).1⟩

end RpcWire.Framed
