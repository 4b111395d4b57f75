import RpcWire.Proofs.Frames
import RpcWire.Proofs.Indexing

/-! Envelopes on a stream, accepted or not. However a stream delivers its octets, an envelope that is there in full is
taken off it in full and nothing behind it is, even where its head is no good. So the next read starts at the next
envelope, and of an envelope that is refused no octet is ever delivered. -/
namespace RpcWire.Enveloped

/-- What comes to a reader of envelopes: an octet of a payload, or the refusal of an envelope. -/
inductive Event where
  | octet (octet : UInt8)
  | refusal (cause : FramingError)
  deriving DecidableEq

def verdict (head : EnvelopeHead) (frame : Bytes) : List Event :=
  match EnvelopeHead.accept frame head with
  | .ok payload _ => payload.map .octet
  | .error cause _ => [.refusal cause]

def headAfter (head : EnvelopeHead) (frame : Bytes) : EnvelopeHead := stateOf (EnvelopeHead.accept frame head)

def verdicts : EnvelopeHead → List Bytes → List Event
  | _, [] => []
  | head, frame :: frames => verdict head frame ++ verdicts (headAfter head frame) frames

def brought : Except WireError Bytes → List Event
  | .ok got => got.map .octet
  | .error (.framing cause) => [.refusal cause]
  | .error _ => []

/-- A read gets octets or learns of a refusal; only one that asks for none gets none. -/
inductive Served : Nat → Except WireError Bytes → Prop where
  | idle : Served 0 (.ok [])
  | octets {n : Nat} {got : Bytes} (hsome : got ≠ []) (hmost : got.length ≤ n) : Served n (.ok got)
  | refusal {n : Nat} (cause : FramingError) : Served n (.error (.framing cause))

def outcome (n : Nat) (layer : Enveloped) : Except WireError Bytes × Enveloped :=
  match read n layer with
  | .ok got after => (.ok got, after)
  | .error err after => (.error err, after)

def outcomes : List Nat → Enveloped → List (Except WireError Bytes) × Enveloped
  | [], layer => ([], layer)
  | n :: sizes, layer =>
    let (first, middle) := outcome n layer
    let (rest, last) := outcomes sizes middle
    (first :: rest, last)

/-- The layer with some envelopes behind it and some in front of it, when `left` is not read yet of the last one. -/
def amid (start : Enveloped) (later : Bytes) (begun coming : List Bytes) (left : Bytes) : Enveloped :=
  { start with
    stream := { start.stream with unread := coming.flatMap Framed.encode ++ later }
    head := begun.foldl headAfter start.head
    payload := left }

variable {start layer : Enveloped} {later left frame : Bytes} {begun coming : List Bytes} {n : Nat}

private theorem headAfter_concat (head : EnvelopeHead) (begun : List Bytes) (frame : Bytes) :
    (begun ++ [frame]).foldl headAfter head = headAfter (begun.foldl headAfter head) frame := by
  rw [List.foldl_append, List.foldl_cons, List.foldl_nil]

private theorem verdicts_append (head : EnvelopeHead) (frames more : List Bytes) :
    verdicts head (frames ++ more) = verdicts head frames ++ verdicts (frames.foldl headAfter head) more := by
  induction frames generalizing head with
  | nil => rfl
  | cons frame frames ih => rw [List.cons_append, verdicts, ih, verdicts, List.foldl_cons, List.append_assoc]

/-- An envelope of a fit size that is there in full is taken in full, and then it is accepted or not. -/
theorem load_whole (hsize : EnvelopeHead.fixedSize ≤ frame.length) (hfit : frame.length ≤ layer.maxSize.toNat)
    (h : layer.stream.unread = frame ++ later) :
    load (UInt32.ofNat frame.length) layer = match EnvelopeHead.accept frame layer.head with
      | .error cause head =>
        .error (.framing cause) { layer with stream := { layer.stream with unread := later }, head }
      | .ok payload head => .ok () { layer with stream := { layer.stream with unread := later }, head, payload } := by
  have hword := UInt32.toNat_ofNat_of_lt' (Nat.lt_of_le_of_lt hfit layer.maxSize.toNat_lt)
  have hsmall : ¬layer.maxSize < UInt32.ofNat frame.length := by
    rw [UInt32.lt_iff_toNat_lt, hword]
    omega
  have hread : Stream.readFull frame.length layer.stream = _ :=
    Stream.readFull_front (by rw [h, List.length_append]; omega)
  rw [h, List.take_left, List.drop_left] at hread
  rw [load, if_neg hsmall, hword, if_neg (Nat.not_lt.mpr hsize), hread]
  refine (if_neg (Nat.lt_irrefl _)).trans ?_
  cases EnvelopeHead.accept frame layer.head <;> rfl

/-- Between envelopes, a read takes the next one off the stream; it fails if that is refused, and is a read of the
payload if not. -/
theorem read_envelope (hn : n ≠ 0) (hsize : EnvelopeHead.fixedSize ≤ frame.length)
    (hfit : frame.length ≤ layer.maxSize.toNat) (hout : layer.payload = [])
    (h : layer.stream.unread = Framed.encode frame ++ later) :
    read n layer = match EnvelopeHead.accept frame layer.head with
      | .error cause head =>
        .error (.framing cause) { layer with stream := { layer.stream with unread := later }, head }
      | .ok payload head => read n { layer with stream := { layer.stream with unread := later }, head, payload } := by
  have hpos := Nat.pos_of_ne_zero hn
  rw [Framed.encode, List.append_assoc] at h
  have hlength := Stream.readLength_front (Nat.lt_of_le_of_lt hfit layer.maxSize.toNat_lt) h
  have hload := @load_whole { layer with stream := { layer.stream with unread := frame ++ later } } later frame
    hsize hfit rfl
  rw [read_eq hpos, await_between hout, hlength]
  dsimp only
  cases haccept : EnvelopeHead.accept frame layer.head with
  | error cause head =>
    rw [haccept] at hload
    rw [bind_of_error hload]
  | ok payload head =>
    rw [haccept] at hload
    rw [bind_of_ok hload]
    exact (read_eq hpos _).symm

/-- A read inside an envelope takes octets from the front of its payload. -/
theorem read_payload (hn : n ≠ 0) (hinside : layer.payload ≠ []) :
    read n layer = .ok (layer.payload.take n) { layer with payload := layer.payload.drop n } := by
  rw [read_eq (Nat.pos_of_ne_zero hn), await_inside hinside]

def Fit (maxSize : UInt32) (frames : List Bytes) : Prop :=
  ∀ frame ∈ frames, EnvelopeHead.fixedSize ≤ frame.length ∧ frame.length ≤ maxSize.toNat

/-- A read between envelopes begins the next one. -/
theorem read_amid (hn : n ≠ 0) (hfit : Fit start.maxSize (frame :: coming)) :
    read n (start.amid later begun (frame :: coming) []) =
      match EnvelopeHead.accept frame (begun.foldl headAfter start.head) with
      | .error cause _ => .error (.framing cause) (start.amid later (begun ++ [frame]) coming [])
      | .ok payload _ => read n (start.amid later (begun ++ [frame]) coming payload) := by
  obtain ⟨⟨hsize, hmax⟩, -⟩ := List.forall_mem_cons.mp hfit
  have hunread : (start.amid later begun (frame :: coming) []).stream.unread =
      Framed.encode frame ++ (coming.flatMap Framed.encode ++ later) := by
    rw [amid, List.flatMap_cons, List.append_assoc]
  rw [@read_envelope (start.amid later begun (frame :: coming) []) _ frame n hn hsize hmax rfl hunread]
  simp only [amid, headAfter_concat, headAfter]
  cases EnvelopeHead.accept frame (begun.foldl headAfter start.head) <;> rfl

private theorem outcome_congr {other : Enveloped} (h : read n layer = read n other) :
    outcome n layer = outcome n other := by
  rw [outcome, outcome, h]

/-- Envelopes that bring nothing are passed over. -/
theorem read_amid_over (hn : n ≠ 0) (hfit : Fit start.maxSize coming)
    (hnone : verdicts (begun.foldl headAfter start.head) coming = []) :
    read n (start.amid later begun coming []) = read n (start.amid later (begun ++ coming) [] []) := by
  induction coming generalizing begun with
  | nil => rw [List.append_nil]
  | cons frame coming ih =>
    obtain ⟨hfirst, hrest⟩ := List.append_eq_nil_iff.mp hnone
    rw [verdict] at hfirst
    cases haccept : EnvelopeHead.accept frame (begun.foldl headAfter start.head) with
    | error cause head =>
      rw [haccept] at hfirst
      cases hfirst
    | ok payload head =>
      rw [haccept] at hfirst
      obtain rfl : payload = [] := List.map_eq_nil_iff.mp hfirst
      rw [← headAfter_concat] at hrest
      rw [read_amid hn hfit, haccept]
      dsimp only
      rw [ih (List.forall_mem_cons.mp hfit).2 hrest, List.append_assoc, List.singleton_append]

private theorem outcome_payload (hn : n ≠ 0) {payload : Bytes} (hne : payload ≠ []) :
    outcome n (start.amid later begun coming payload) =
      (.ok (payload.take n), start.amid later begun coming (payload.drop n)) ∧
    brought (.ok (payload.take n)) ++ (payload.drop n).map .octet = payload.map .octet ∧
    Served n (.ok (payload.take n)) := by
  refine ⟨?_, ?_, .octets (by simp [hn, hne]) (List.length_take_le n payload)⟩
  · rw [outcome, read_payload hn (by exact hne)]
    rfl
  · rw [brought, ← List.map_append, List.take_append_drop]

/-- A read brings the first of what is ahead, which is what is left of the envelope begun and then what the others
bring, and leaves the rest ahead; unless nothing is ahead. -/
theorem outcome_amid (n : Nat) (hfit : Fit start.maxSize coming) :
    (∃ result passed rest left', coming = passed ++ rest ∧
      outcome n (start.amid later begun coming left) = (result, start.amid later (begun ++ passed) rest left') ∧
      brought result ++ left'.map .octet =
        left.map .octet ++ verdicts (begun.foldl headAfter start.head) passed ∧
      Served n result) ∨
    left = [] ∧ verdicts (begun.foldl headAfter start.head) coming = [] := by
  by_cases hn : n = 0
  · subst hn
    refine .inl ⟨.ok [], [], coming, left, rfl, ?_, by simp [brought, verdicts], .idle⟩
    rw [List.append_nil]
    rfl
  by_cases hleft : left = []
  · subst hleft
    -- Over the envelopes that bring nothing, up to one that is refused or has a payload.
    induction coming generalizing begun with
    | nil => exact .inr ⟨rfl, rfl⟩
    | cons frame coming ih =>
      have hstep := @read_amid start later frame begun coming n hn hfit
      have hothers := (List.forall_mem_cons.mp hfit).2
      cases haccept : EnvelopeHead.accept frame (begun.foldl headAfter start.head) with
      | error cause head =>
        rw [haccept] at hstep
        refine .inl ⟨.error (.framing cause), [frame], coming, [], rfl, ?_, ?_, .refusal cause⟩
        · rw [outcome, hstep]
        · simp [brought, verdicts, verdict, haccept]
      | ok payload head =>
        rw [haccept] at hstep
        by_cases hpayload : payload = []
        · subst hpayload
          have hverdict : verdict (begun.foldl headAfter start.head) frame = [] := by rw [verdict, haccept]; rfl
          simp only [verdicts, hverdict, List.nil_append, ← headAfter_concat]
          rw [outcome_congr hstep]
          rcases @ih (begun ++ [frame]) hothers with ⟨result, passed, rest, left', rfl, hread, hbrought, hsome⟩ | hnone
          · refine .inl ⟨result, frame :: passed, rest, left', rfl, ?_, ?_, hsome⟩
            · rw [hread, List.append_assoc, List.singleton_append]
            · rw [hbrought, verdicts, hverdict, List.nil_append, headAfter_concat]
          · exact .inr ⟨trivial, hnone.2⟩
        · obtain ⟨hread, hbrought, hsome⟩ :=
            @outcome_payload start later (begun ++ [frame]) coming n hn payload hpayload
          refine .inl ⟨_, [frame], coming, payload.drop n, rfl, (outcome_congr hstep).trans hread, ?_, hsome⟩
          rw [hbrought]
          simp [verdicts, verdict, haccept]
  · obtain ⟨hread, hbrought, hsome⟩ := @outcome_payload start later begun coming n hn left hleft
    refine .inl ⟨_, [], coming, left.drop n, rfl, ?_, ?_, hsome⟩
    · rw [List.append_nil, hread]
    · rw [hbrought, verdicts, List.append_nil]

/-- Reads of any sizes, until nothing is ahead any more, bring the first of what was ahead and leave the rest. -/
theorem outcomes_amid (sizes : List Nat) (hfit : Fit start.maxSize coming) :
    ∃ first others results passed rest left', sizes = first ++ others ∧ coming = passed ++ rest ∧
      outcomes first (start.amid later begun coming left) = (results, start.amid later (begun ++ passed) rest left') ∧
      results.flatMap brought ++ left'.map .octet =
        left.map .octet ++ verdicts (begun.foldl headAfter start.head) passed ∧
      (∀ read ∈ first.zip results, Served read.1 read.2) ∧
      (others ≠ [] → left' = [] ∧ verdicts ((begun ++ passed).foldl headAfter start.head) rest = []) := by
  induction sizes generalizing begun coming left with
  | nil =>
    refine ⟨[], [], [], [], coming, left, rfl, rfl, ?_, ?_, by simp, fun h => absurd rfl h⟩
    · rw [List.append_nil]
      rfl
    · rw [List.flatMap_nil, List.nil_append, verdicts, List.append_nil]
  | cons n sizes ih =>
    rcases @outcome_amid _ later left begun _ n hfit with
      ⟨result, passed, rest, left', rfl, hread, hbrought, hsome⟩ | hnone
    · have hrest : Fit start.maxSize rest := (List.forall_mem_append.mp hfit).2
      obtain ⟨first, others, results, passed', rest', last, rfl, rfl, hreads, hall, hsomes, hnone⟩ :=
        @ih left' (begun ++ passed) rest hrest
      refine ⟨n :: first, others, result :: results, passed ++ passed', rest', last, rfl, ?_, ?_, ?_, ?_, ?_⟩
      · rw [List.append_assoc]
      · rw [outcomes, hread]
        dsimp only
        rw [hreads, List.append_assoc]
      · rw [List.flatMap_cons, List.append_assoc, hall, ← List.append_assoc, hbrought, verdicts_append,
          List.append_assoc, List.foldl_append]
      · rw [List.zip_cons_cons]
        exact List.forall_mem_cons.mpr ⟨hsome, hsomes⟩
      · rwa [← List.append_assoc]
    · refine ⟨[], n :: sizes, [], [], coming, left, rfl, rfl, ?_, ?_, by simp, fun _ => ?_⟩
      · rw [List.append_nil]
        rfl
      · rw [List.flatMap_nil, List.nil_append, verdicts, List.append_nil]
      · rwa [List.append_nil]

/-- A read does what it does by index, where no index lies outside of the envelope, no loop is cut short, and the loops
over a block of headers turn no more often than the block has octets. If envelopes are there in full, between the size
of a head and the most that is admitted, then each is taken in full and nothing behind it is, accepted or not: the reads
bring what the envelopes bring in turn, each of them something, until the octets behind all envelopes come next. An
envelope is accepted exactly if its mark is right and its block of headers lies within it and can be read, and then it
brings all that stands behind the block. -/
theorem read_bounded_and_aligned :
    (∀ (n : Nat) (layer : Enveloped), ∃ surveys, (∀ survey ∈ surveys, Indexing.Survey.Bounded survey) ∧
      Indexing.read n ⟨layer, []⟩ = Indexing.noting surveys (read n layer)) ∧
    (∀ (start : Enveloped) (frames : List Bytes) (later : Bytes) (sizes : List Nat), start.payload = [] →
      start.stream.unread = frames.flatMap Framed.encode ++ later →
      (∀ frame ∈ frames, EnvelopeHead.fixedSize ≤ frame.length ∧ frame.length ≤ start.maxSize.toNat) →
      ∃ first others results begun coming left, sizes = first ++ others ∧ frames = begun ++ coming ∧
        outcomes first start = (results, { start with
          stream := { start.stream with unread := coming.flatMap Framed.encode ++ later }
          head := begun.foldl headAfter start.head
          payload := left }) ∧
        results.flatMap brought ++ left.map .octet = verdicts start.head begun ∧
        (∀ read ∈ first.zip results, Served read.1 read.2) ∧
        (others ≠ [] → left = [] ∧ verdicts (begun.foldl headAfter start.head) coming = [] ∧
          ∀ n, n ≠ 0 → read n (outcomes first start).2 = read n { start with
            stream := { start.stream with unread := later }
            head := frames.foldl headAfter start.head })) ∧
    ∀ (frame payload : Bytes) (head after : EnvelopeHead), EnvelopeHead.accept frame head = .ok payload after ↔
      UInt16.ofNat (Bytes.toNat (frame.take 2)) = EnvelopeHead.magic ∧
      EnvelopeHead.blockSize frame ≤ (frame.drop EnvelopeHead.fixedSize).length ∧
      EnvelopeHead.decodeBlock ((frame.drop EnvelopeHead.fixedSize).take (EnvelopeHead.blockSize frame))
        (head.numbered frame) = .ok () after ∧
      payload = frame.drop (EnvelopeHead.fixedSize + EnvelopeHead.blockSize frame) := by
  refine ⟨fun n layer => ?_, fun start frames later sizes hout hunread hfit => ?_,
    fun _ _ _ _ => EnvelopeHead.accept_eq_ok_iff⟩
  · obtain ⟨surveys, hbounded, hread⟩ := Indexing.surveys_read n layer []
    exact ⟨surveys, hbounded, hread⟩
  · have hstart : start.amid later [] frames [] = start := by
      rw [amid, ← hunread, List.foldl_nil, ← hout]
    obtain ⟨first, others, results, passed, rest, left, rfl, rfl, hreads, hall, hserved, hnone⟩ :=
      @outcomes_amid start later [] [] frames sizes hfit
    rw [hstart] at hreads
    refine ⟨first, others, results, passed, rest, left, rfl, rfl, hreads, hall, hserved, fun hmore => ?_⟩
    obtain ⟨rfl, hverdicts⟩ := hnone hmore
    refine ⟨rfl, hverdicts, fun n hn => ?_⟩
    rw [hreads]
    have hover := @read_amid_over start later ([] ++ passed) rest n hn (List.forall_mem_append.mp hfit).2 hverdicts
    refine hover.trans ?_
    rw [amid, List.flatMap_nil, List.nil_append, List.nil_append, ← hout]

/-- Envelopes with a wrong mark, with four octets of payload, and with a transform announced, and the front of a length
behind them. Reads of two octets, from a stream that delivers three at a time, get the four octets and the two refusals,
in order, and the fifth is about what stands behind. -/
theorem read_bounded_and_aligned_refusals : ∃ (start : Enveloped) (frames : List Bytes) (later : Bytes),
    frames = [[0x12, 0x34, 0, 0, 0, 0, 0, 1, 0, 0, 1, 2, 3],
      [0x0f, 0xff, 0, 0, 0, 0, 0, 7, 0, 1, 0, 0, 0, 0, 21, 22, 23, 24],
      [0x0f, 0xff, 0, 0, 0, 0, 0, 1, 0, 1, 0, 1, 1, 0, 5]] ∧ later = [0, 0] ∧
    start.payload = [] ∧ start.stream.unread = frames.flatMap Framed.encode ++ later ∧ start.stream.chunk = some 3 ∧
    (∀ frame ∈ frames, EnvelopeHead.fixedSize ≤ frame.length ∧ frame.length ≤ start.maxSize.toNat) ∧
    verdicts start.head frames = [.refusal (.badMagic 0x1234), .octet 21, .octet 22, .octet 23, .octet 24,
      .refusal (.unsupportedTransform 1)] ∧
    (outcomes [2, 2, 2, 2, 2] start).1.map brought = [[.refusal (.badMagic 0x1234)], [.octet 21, .octet 22],
      [.octet 23, .octet 24], [.refusal (.unsupportedTransform 1)], []] ∧
    ∃ first others results begun coming, ∃ left : Bytes, [2, 2, 2, 2, 2] = first ++ others ∧
      frames = begun ++ coming ∧ (outcomes first start).1 = results ∧
      results.flatMap brought ++ left.map .octet = verdicts start.head begun ∧
      ∀ read ∈ first.zip results, Served read.1 read.2 := by
  let frames : List Bytes := [[0x12, 0x34, 0, 0, 0, 0, 0, 1, 0, 0, 1, 2, 3],
    [0x0f, 0xff, 0, 0, 0, 0, 0, 7, 0, 1, 0, 0, 0, 0, 21, 22, 23, 24],
    [0x0f, 0xff, 0, 0, 0, 0, 0, 1, 0, 1, 0, 1, 1, 0, 5]]
  let start : Enveloped :=
    { stream := { unread := frames.flatMap Framed.encode ++ [0, 0], chunk := some 3 }, maxSize := 40 }
  have hfit : ∀ frame ∈ frames, EnvelopeHead.fixedSize ≤ frame.length ∧ frame.length ≤ start.maxSize.toNat := by
    decide
  obtain ⟨first, others, results, begun, coming, left, hsizes, hframes, hreads, hall, hserved, -⟩ :=
    read_bounded_and_aligned.2.1 start frames [0, 0] [2, 2, 2, 2, 2] rfl rfl hfit
  exact ⟨start, frames, [0, 0], rfl, rfl, rfl, rfl, rfl, hfit, by decide +kernel, by decide +kernel,
    first, others, results, begun, coming, left, hsizes, hframes, congrArg Prod.fst hreads, hall, hserved⟩

end RpcWire.Enveloped
