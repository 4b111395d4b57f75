import RpcWire.Proofs.Aligning
import RpcWire.Proofs.Arrival
import RpcWire.Proofs.Blocks
import RpcWire.Proofs.Enveloping
import RpcWire.Proofs.Taking

/-! What an envelope says, piece by piece. A head takes in each piece as soon as it is read, so an envelope that is
refused leaves behind what it said before its flaw. -/
namespace RpcWire

namespace HeaderFlaw

def ofNumber : HeaderFlaw → Bool
  | .truncatedVarint | .varintTooLong => true
  | _ => false

def ofEntry : HeaderFlaw → Bool
  | .truncatedText | .textNotUtf8 => true
  | flaw => flaw.ofNumber

private theorem ofEntry_of_ofNumber {flaw : HeaderFlaw} (h : flaw.ofNumber) : flaw.ofEntry := by
  cases flaw <;> first | rfl | cases h

end HeaderFlaw

def WireError.ofEntry : WireError → Bool
  | .framing (.corruptHeader flaw) => flaw.ofEntry
  | _ => false

namespace EnvelopeHead

/-- A piece of what an envelope says. Its headers begin where those of the envelope before are forgotten, and end where
it is settled who sent it. -/
inductive Saying where
  | flags (bits : UInt16)
  | seqId (number : UInt32)
  | encoding (named : Encoding)
  | headers
  | once (name text : String)
  | lasting (name text : String)
  | ending

def hear (head : EnvelopeHead) : Saying → EnvelopeHead
  | .flags bits => { head with flags := bits }
  | .seqId number => { head with seqId := number }
  | .encoding named => { head with encoding := named }
  | .headers => { head with incoming := ∅ }
  | .once name text => Scan.keepOnce head name text
  | .lasting name text => Scan.keepLasting head name text
  | .ending => { head with peerIdentity := head.incoming.get? identityName }

def Saying.IsHeader : Saying → Prop
  | .once _ _ | .lasting _ _ => True
  | _ => False

def ends {ε σ α : Type} : Except ε α → σ → EStateM.Result ε σ α
  | .ok value, state => .ok value state
  | .error err, state => .error err state

namespace Scan
variable {α β : Type} {bytes rest last : Bytes} {said more : List Saying}

/-- Of the octets the action makes these pieces and this end, whatever head takes them in. -/
def Hears (act : ScanM α) (bytes : Bytes) (said : List Saying) (result : Except FramingError α) (rest : Bytes) : Prop :=
  ∀ head, act ⟨bytes, head⟩ = ends result ⟨rest, said.foldl hear head⟩

private theorem Hears.bind {act : ScanM α} {next : α → ScanM β} {value : α} {result : Except FramingError β}
    (h : Hears act bytes said (.ok value) rest) (h' : Hears (next value) rest more result last) :
    Hears (act >>= next) bytes (said ++ more) result last := by
  intro head
  rw [bind_of_ok (h head), h', List.foldl_append]

private theorem Hears.bind_error {act : ScanM α} {next : α → ScanM β} {err : FramingError}
    (h : Hears act bytes said (.error err) rest) : Hears (act >>= next) bytes said (.error err) rest :=
  fun head => bind_of_error (h head)

/-- Whatever octets there are, the action makes pieces of them that are whole in this sense, or that break off in that
sense. -/
def Tells (act : ScanM α) (whole : List Saying → Prop) (broken : List Saying → FramingError → Prop) : Prop :=
  ∀ bytes, ∃ said rest, (∃ value, Hears act bytes said (.ok value) rest ∧ whole said) ∨
    ∃ err, Hears act bytes said (.error err) rest ∧ broken said err

namespace Tells
variable {act : ScanM α} {whole whole' : List Saying → Prop} {broken broken' : List Saying → FramingError → Prop}

private theorem pure (value : α) (h : whole []) : Tells (pure value) whole broken :=
  fun bytes => ⟨[], bytes, .inl ⟨value, fun _ => rfl, h⟩⟩

private theorem throw {err : FramingError} (h : broken [] err) : Tells (throw err : ScanM α) whole broken :=
  fun bytes => ⟨[], bytes, .inr ⟨err, fun _ => rfl, h⟩⟩

/-- What follows is told behind the pieces made before. -/
private theorem bind {next : α → ScanM β} (h : Tells act whole' broken')
    (hnext : ∀ value said, whole' said →
      Tells (next value) (fun more => whole (said ++ more)) fun more err => broken (said ++ more) err)
    (hbroken : ∀ said err, broken' said err → broken said err) : Tells (act >>= next) whole broken := by
  intro bytes
  obtain ⟨said, rest, ⟨value, hact, hsaid⟩ | ⟨err, hact, hsaid⟩⟩ := h bytes
  · obtain ⟨more, last, ⟨result, hrest, hmore⟩ | ⟨err, hrest, hmore⟩⟩ := hnext value said hsaid rest
    · exact ⟨said ++ more, last, .inl ⟨result, hact.bind hrest, hmore⟩⟩
    · exact ⟨said ++ more, last, .inr ⟨err, hact.bind hrest, hmore⟩⟩
  · exact ⟨said, rest, .inr ⟨err, hact.bind_error, hbroken said err hsaid⟩⟩

private theorem hearing (saying : Saying) (h : whole [saying]) :
    Tells (modify fun scan => { scan with head := hear scan.head saying }) whole broken :=
  fun bytes => ⟨[saying], bytes, .inl ⟨⟨⟩, fun _ => rfl, h⟩⟩

/-- One piece is taken in, and then more. -/
theorem hearing_then (saying : Saying) {next : PUnit → ScanM β}
    (h : ∀ last, Tells (next last) (fun more => whole (saying :: more)) fun more err => broken (saying :: more) err) :
    Tells ((modify fun scan => { scan with head := hear scan.head saying }) >>= next) whole broken := by
  have hthis : Tells (modify fun scan => { scan with head := hear scan.head saying }) (· = [saying])
      fun _ _ => False := hearing saying rfl
  refine hthis.bind ?_ fun _ _ => False.elim
  rintro last _ rfl
  exact h last

private theorem mono (h : Tells act whole' broken') (hwhole : ∀ said, whole' said → whole said)
    (hbroken : ∀ said err, broken' said err → broken said err) : Tells act whole broken := by
  intro bytes
  obtain ⟨said, rest, ⟨value, hact, hsaid⟩ | ⟨err, hact, hsaid⟩⟩ := h bytes
  · exact ⟨said, rest, .inl ⟨value, hact, hwhole said hsaid⟩⟩
  · exact ⟨said, rest, .inr ⟨err, hact, hbroken said err hsaid⟩⟩

/-- A look at the octets that are left, and not at the head. -/
private theorem get {next : Scan → ScanM β}
    (hsame : ∀ bytes head head', next ⟨bytes, head⟩ = next ⟨bytes, head'⟩)
    (h : ∀ scan, Tells (next scan) whole broken) : Tells (MonadState.get >>= next) whole broken := by
  intro bytes
  have hget {said : List Saying} {rest : Bytes} {result : Except FramingError β}
      (hnext : Hears (next ⟨bytes, {}⟩) bytes said result rest) :
      Hears (MonadState.get >>= next) bytes said result rest := by
    intro head
    rw [bind_of_ok (get_ok _), hsame bytes head {}]
    exact hnext head
  obtain ⟨said, rest, ⟨value, hnext, hsaid⟩ | ⟨err, hnext, hsaid⟩⟩ := h ⟨bytes, {}⟩ bytes
  · exact ⟨said, rest, .inl ⟨value, hget hnext, hsaid⟩⟩
  · exact ⟨said, rest, .inr ⟨err, hget hnext, hsaid⟩⟩

end Tells

def Silent (act : ScanM α) (flawed : FramingError → Prop) : Prop :=
  Tells act (· = []) fun said err => said = [] ∧ flawed err

namespace Silent
variable {act : ScanM α} {flawed flawed' : FramingError → Prop}

private theorem before {next : α → ScanM β} {whole : List Saying → Prop}
    {broken : List Saying → FramingError → Prop}
    (h : Silent act flawed) (hnext : ∀ value, Tells (next value) whole broken)
    (hbroken : ∀ err, flawed err → broken [] err) : Tells (act >>= next) whole broken := by
  refine Tells.bind h ?_ ?_
  · rintro value _ rfl
    exact hnext value
  · rintro _ err ⟨rfl, herr⟩
    exact hbroken err herr

private theorem bind {next : α → ScanM β} (h : Silent act flawed)
    (hnext : ∀ value, Silent (next value) flawed) :
    Silent (act >>= next) flawed :=
  h.before hnext fun _ herr => ⟨rfl, herr⟩

private theorem mono (h : Silent act flawed) (hflawed : ∀ err, flawed err → flawed' err) : Silent act flawed' :=
  Tells.mono h (fun _ hsaid => hsaid) fun _ err hsaid => ⟨hsaid.1, hflawed err hsaid.2⟩

end Silent

def Flawed (sort : HeaderFlaw → Bool) (err : FramingError) : Prop := ∃ flaw, err = .corruptHeader flaw ∧ sort flaw

private theorem silent_byte : Silent byte (Flawed HeaderFlaw.ofNumber) := by
  intro bytes
  cases bytes with
  | nil => exact ⟨[], [], .inr ⟨.corruptHeader .truncatedVarint, fun _ => rfl, rfl, _, rfl, rfl⟩⟩
  | cons first rest => exact ⟨[], rest, .inl ⟨first, fun _ => rfl, rfl⟩⟩

private theorem silent_groups (most : Nat) : Silent (groups most) (Flawed HeaderFlaw.ofNumber) := by
  induction most with
  | zero => exact Tells.throw ⟨rfl, _, rfl, rfl⟩
  | succ most ih =>
    refine silent_byte.bind fun first => ?_
    split
    · exact ih.bind fun taken => Tells.pure _ rfl
    · exact Tells.pure _ rfl

private theorem silent_varint : Silent varint (Flawed HeaderFlaw.ofNumber) :=
  (silent_groups 5).bind fun _ => Tells.pure _ rfl

private theorem silent_textOf (length : Nat) : Silent (textOf length) (Flawed HeaderFlaw.ofEntry) := by
  intro bytes
  by_cases hfew : bytes.length < length
  · refine ⟨[], bytes, .inr ⟨.corruptHeader .truncatedText, fun head => ?_, rfl, _, rfl, rfl⟩⟩
    rw [textOf, bind_of_ok (get_ok _), if_pos hfew]
    rfl
  · cases hdecode : Utf8.decode? (bytes.take length) with
    | none =>
      refine ⟨[], bytes.drop length, .inr ⟨.corruptHeader .textNotUtf8, fun head => ?_, rfl, _, rfl, rfl⟩⟩
      rw [textOf, bind_of_ok (get_ok _), if_neg hfew]
      refine (bind_of_ok (set_ok _ _)).trans ?_
      dsimp only
      rw [hdecode]
      rfl
    | some text =>
      refine ⟨[], bytes.drop length, .inl ⟨text, fun head => ?_, rfl⟩⟩
      rw [textOf, bind_of_ok (get_ok _), if_neg hfew]
      refine (bind_of_ok (set_ok _ _)).trans ?_
      dsimp only
      rw [hdecode]
      rfl

private theorem silent_text : Silent text (Flawed HeaderFlaw.ofEntry) :=
  (silent_varint.mono fun _ ⟨flaw, herr, hflaw⟩ => ⟨flaw, herr, HeaderFlaw.ofEntry_of_ofNumber hflaw⟩).bind
    fun length => silent_textOf length.toNat

def TellsHeaders (act : ScanM α) : Prop :=
  Tells act (fun said => ∀ saying ∈ said, saying.IsHeader)
    fun said err => (∀ saying ∈ said, saying.IsHeader) ∧ Flawed HeaderFlaw.ofEntry err

private theorem TellsHeaders.bind {act : ScanM α} {next : α → ScanM β} (h : TellsHeaders act)
    (hnext : ∀ value, TellsHeaders (next value)) : TellsHeaders (act >>= next) :=
  Tells.bind h (fun value _ hsaid => (hnext value).mono (fun _ hmore => List.forall_mem_append.mpr ⟨hsaid, hmore⟩)
    fun _ _ hmore => ⟨List.forall_mem_append.mpr ⟨hsaid, hmore.1⟩, hmore.2⟩) fun _ _ hsaid => hsaid

private theorem TellsHeaders.pure (value : α) :
    TellsHeaders (Pure.pure value) := Tells.pure value (List.forall_mem_nil _)

private theorem TellsHeaders.of_silent {act : ScanM α} (h : Silent act (Flawed HeaderFlaw.ofEntry)) :
    TellsHeaders act := by
  refine Tells.mono h ?_ ?_
  · rintro _ rfl
    exact List.forall_mem_nil _
  · rintro _ err ⟨rfl, herr⟩
    exact ⟨List.forall_mem_nil _, herr⟩

private theorem TellsHeaders.varint : TellsHeaders varint :=
  .of_silent (silent_varint.mono fun _ ⟨flaw, herr, hflaw⟩ => ⟨flaw, herr, HeaderFlaw.ofEntry_of_ofNumber hflaw⟩)

private theorem tellsHeaders_entries {keep : EnvelopeHead → String → String → EnvelopeHead}
    (saying : String → String → Saying)
    (hkeep : ∀ head name text, keep head name text = hear head (saying name text))
    (hheader : ∀ name text, (saying name text).IsHeader) (count : Nat) : TellsHeaders (entries keep count) := by
  induction count with
  | zero => exact .pure ()
  | succ count ih =>
    have htext : TellsHeaders text := .of_silent silent_text
    refine htext.bind fun name => htext.bind fun text => ?_
    simp only [hkeep]
    refine TellsHeaders.bind (Tells.hearing (saying name text) ?_) fun _ => ih
    exact List.forall_mem_singleton.mpr (hheader name text)

private theorem tellsHeaders_runs (most : Nat) : TellsHeaders (runs most) := by
  induction most with
  | zero => exact .pure ()
  | succ most ih =>
    have honce (count : Nat) : TellsHeaders (entries keepOnce count) :=
      tellsHeaders_entries .once (fun _ _ _ => rfl) (fun _ _ => trivial) count
    have hlasting (count : Nat) : TellsHeaders (entries keepLasting count) :=
      tellsHeaders_entries .lasting (fun _ _ _ => rfl) (fun _ _ => trivial) count
    refine Tells.get (fun _ _ _ => rfl) fun scan => ?_
    split
    · exact TellsHeaders.pure ()
    · refine TellsHeaders.varint.bind fun kind => ?_
      dsimp only
      split
      · exact TellsHeaders.varint.bind fun count => (honce count.toNat).bind fun _ => ih
      · split
        · exact TellsHeaders.varint.bind fun count => (hlasting count.toNat).bind fun _ => ih
        · exact .pure ()

/-- A whole block names an encoding, says headers and ends. -/
inductive BlockWhole : List Saying → Prop where
  | mk (named : Encoding) {headers : List Saying} (hheaders : ∀ saying ∈ headers, saying.IsHeader) :
    BlockWhole (.encoding named :: .headers :: (headers ++ [.ending]))

/-- How far a block got, and why no further. -/
inductive BlockBroken : List Saying → FramingError → Prop where
  | named {err : FramingError} (herr : Flawed HeaderFlaw.ofNumber err) : BlockBroken [] err
  | transforms (named : Encoding) {err : FramingError} (herr : Flawed HeaderFlaw.ofNumber err) :
    BlockBroken [.encoding named] err
  | transform (named : Encoding) (id : UInt32) : BlockBroken [.encoding named] (.unsupportedTransform id)
  | headers (named : Encoding) {headers : List Saying} {err : FramingError}
    (hheaders : ∀ saying ∈ headers, saying.IsHeader) (herr : Flawed HeaderFlaw.ofEntry err) :
    BlockBroken (.encoding named :: .headers :: headers) err

/-- Behind an encoding, headers are told and then their end. -/
theorem tells_headersBy (named : Encoding) : Tells (headersBy varint) (fun said => BlockWhole (.encoding named :: said))
    fun said err => BlockBroken (.encoding named :: said) err := by
  refine Tells.hearing_then .headers fun _ => Tells.get (fun _ _ _ => rfl) fun scan => ?_
  rw [runsBy_varint]
  refine Tells.bind (tellsHeaders_runs _) (fun _ headers hheaders => ?_) fun headers err hheaders => ?_
  · exact Tells.hearing .ending (.mk named hheaders)
  · exact .headers named hheaders.1 hheaders.2

private theorem tells_block : Tells block BlockWhole BlockBroken := by
  rw [← blockBy_varint]
  refine silent_varint.before (fun number => ?_) fun err herr => .named herr
  refine Tells.hearing_then (.encoding (.ofWire number)) fun _ => ?_
  refine silent_varint.before (fun transforms => ?_) fun err herr => .transforms _ herr
  dsimp only
  split
  · refine silent_varint.before (fun id => ?_) fun err herr => .transforms _ herr
    exact fun bytes => ⟨[], bytes, .inr ⟨_, fun _ => rfl, .transform _ id⟩⟩
  · exact tells_headersBy _

end Scan

/-- What a whole envelope says. -/
inductive Whole : List Saying → Prop where
  | mk (bits : UInt16) (number : UInt32) {said : List Saying} (hblock : Scan.BlockWhole said) :
    Whole (.flags bits :: .seqId number :: said)

/-- What an envelope said that is refused, and why. -/
inductive Broken : List Saying → FramingError → Prop where
  | mark (word : UInt16) : Broken [] (.badMagic word)
  | size (bits : UInt16) (number : UInt32) :
    Broken [.flags bits, .seqId number] (.corruptHeader .headerBeyondEnvelope)
  | block (bits : UInt16) (number : UInt32) {said : List Saying} {err : FramingError}
    (hblock : Scan.BlockBroken said err) : Broken (.flags bits :: .seqId number :: said) err

/-- Behind a good mark, flags and the sequence number are taken in before anything is checked. -/
theorem accept_eq {frame : Bytes} (hmark : UInt16.ofNat (Bytes.toNat (frame.take 2)) = magic) :
    ∃ bits number size, ∀ head, accept frame head =
      let rest := frame.drop fixedSize
      let head := [.flags bits, .seqId number].foldl hear head
      if rest.length < size then .error (.corruptHeader .headerBeyondEnvelope) head
      else match Scan.block ⟨rest.take size, head⟩ with
        | .ok () scan => .ok (rest.drop size) scan.head
        | .error err scan => .error err scan.head := by
  refine ⟨UInt16.ofNat (Bytes.toNat ((frame.drop 2).take 2)), UInt32.ofNat (Bytes.toNat ((frame.drop 4).take 4)),
    blockSize frame, fun head => ?_⟩
  rw [accept_of_mark hmark, decodeBlock]
  dsimp only [numbered, List.foldl_cons, List.foldl_nil, hear]
  split
  · rfl
  · generalize Scan.block _ = outcome
    cases outcome <;> rfl

/-- What a head takes in of an envelope is up to the envelope alone. -/
theorem accept_hears (frame : Bytes) :
    ∃ said, (∃ payload, Whole said ∧ ∀ head, accept frame head = .ok payload (said.foldl hear head)) ∨
      ∃ err, Broken said err ∧ ∀ head, accept frame head = .error err (said.foldl hear head) := by
  by_cases hmark : UInt16.ofNat (Bytes.toNat (frame.take 2)) = magic
  · obtain ⟨bits, number, size, haccept⟩ := accept_eq hmark
    by_cases hsize : (frame.drop fixedSize).length < size
    · refine ⟨[.flags bits, .seqId number], .inr ⟨_, .size bits number, fun head => ?_⟩⟩
      rw [haccept]
      exact if_pos hsize
    · obtain ⟨said, rest, ⟨value, hblock, hsaid⟩ | ⟨err, hblock, hsaid⟩⟩ :=
        Scan.tells_block ((frame.drop fixedSize).take size)
      · refine ⟨.flags bits :: .seqId number :: said, .inl ⟨(frame.drop fixedSize).drop size, .mk bits number hsaid,
          fun head => ?_⟩⟩
        rw [haccept]
        dsimp only
        rw [if_neg hsize, hblock]
        rfl
      · refine ⟨.flags bits :: .seqId number :: said, .inr ⟨err, .block bits number hsaid, fun head => ?_⟩⟩
        rw [haccept]
        dsimp only
        rw [if_neg hsize, hblock]
        rfl
  · refine ⟨[], .inr ⟨.badMagic (UInt16.ofNat (Bytes.toNat (frame.take 2))), .mark _, fun head => ?_⟩⟩
    rw [accept, if_pos hmark]
    rfl

/-! ## What is left of a refusal -/

/-- What a head shows of the envelopes read: who sent the last one, and the headers. -/
def InStep (head : EnvelopeHead) : Prop := head.peerIdentity = head.incoming.get? identityName

/-- Headers change nothing else. -/
theorem foldl_headers {said : List Saying} (h : ∀ saying ∈ said, saying.IsHeader) (head : EnvelopeHead) :
    ∃ incoming incomingLasting, said.foldl hear head = { head with incoming, incomingLasting } := by
  induction said generalizing head with
  | nil => exact ⟨_, _, rfl⟩
  | cons saying said ih =>
    obtain ⟨hfirst, hrest⟩ := List.forall_mem_cons.mp h
    obtain ⟨incoming, lasting, hfold⟩ := ih hrest (hear head saying)
    refine ⟨incoming, lasting, ?_⟩
    rw [List.foldl_cons, hfold]
    cases saying <;> first | rfl | exact False.elim hfirst

/-- Once an envelope is accepted, it is settled who sent it. -/
theorem Whole.inStep {said : List Saying} (h : Whole said) (head : EnvelopeHead) : InStep (said.foldl hear head) := by
  obtain ⟨bits, number, named, hheaders⟩ := h
  rw [← List.cons_append, ← List.cons_append, ← List.cons_append, ← List.cons_append, List.foldl_append]
  rfl

/-- A refusal shows in what is said of the envelope, and in headers if the flaw is among these. -/
theorem Broken.foldl_hear {said : List Saying} {err : FramingError} (h : Broken said err) (head : EnvelopeHead) :
    ∃ flags seqId encoding incoming incomingLasting,
      said.foldl hear head = { head with flags, seqId, encoding, incoming, incomingLasting } ∧
      (Scan.Flawed HeaderFlaw.ofEntry err ∨ incoming = head.incoming ∧ incomingLasting = head.incomingLasting) := by
  cases h with
  | mark word => exact ⟨_, _, _, _, _, rfl, .inr ⟨rfl, rfl⟩⟩
  | size bits number => exact ⟨_, _, _, _, _, rfl, .inr ⟨rfl, rfl⟩⟩
  | block bits number hblock =>
    cases hblock with
    | named herr => exact ⟨_, _, _, _, _, rfl, .inr ⟨rfl, rfl⟩⟩
    | transforms named herr => exact ⟨_, _, _, _, _, rfl, .inr ⟨rfl, rfl⟩⟩
    | transform named id => exact ⟨_, _, _, _, _, rfl, .inr ⟨rfl, rfl⟩⟩
    | headers named hheaders herr =>
      obtain ⟨incoming, lasting, hfold⟩ := foldl_headers hheaders
        ([Saying.flags bits, .seqId number, .encoding named, .headers].foldl hear head)
      exact ⟨_, _, _, _, _, hfold, .inl herr⟩

end EnvelopeHead

namespace Enveloped
open EnvelopeHead

/-- Takes the next envelope off the stream; false at a clean end. -/
def next : EnvelopedM Bool := fun layer =>
  match Stream.readLength layer.stream with
  | .error err stream => .error err { layer with stream }
  | .ok none stream => .ok false { layer with stream }
  | .ok (some length) stream =>
    match load length { layer with stream } with
    | .error err after => .error err after
    | .ok () after => .ok true after

/-- An envelope of a fit size that is there in full is accepted or not for what it is. -/
theorem next_whole {layer : Enveloped} {frame later : Bytes} (hsize : fixedSize ≤ frame.length)
    (hfit : frame.length ≤ layer.maxSize.toNat) (h : layer.stream.unread = Framed.encode frame ++ later) :
    next layer = match accept frame layer.head with
      | .error cause head =>
        .error (.framing cause) { layer with stream := { layer.stream with unread := later }, head }
      | .ok payload head => .ok true { layer with stream := { layer.stream with unread := later }, head, payload } := by
  rw [Framed.encode, List.append_assoc] at h
  have hlength := Stream.readLength_front (Nat.lt_of_le_of_lt hfit layer.maxSize.toNat_lt) h
  have hload := @load_whole { layer with stream := { layer.stream with unread := frame ++ later } } later frame
    hsize hfit rfl
  rw [next, hlength]
  dsimp only
  rw [hload]
  dsimp only
  cases accept frame layer.head <;> rfl

/-- An envelope is accepted, or refused before or after something of it was taken in. -/
inductive Loaded (layer : Enveloped) : EStateM.Result WireError Enveloped Bool → Prop where
  | accepted (stream : Stream) (payload : Bytes) {said : List Saying} (hwhole : Whole said) :
    Loaded layer (.ok true { layer with stream, payload, head := said.foldl hear layer.head })
  | ended (stream : Stream) : Loaded layer (.ok false { layer with stream })
  | unheard (stream : Stream) (err : WireError) : Loaded layer (.error err { layer with stream })
  | refused (stream : Stream) {frame : Bytes} {said : List Saying} {cause : FramingError}
    (hunread : layer.stream.unread = Framed.encode frame ++ stream.unread) (hbroken : Broken said cause)
    (hsaid : ∀ head, accept frame head = .error cause (said.foldl hear head)) :
    Loaded layer (.error (.framing cause) { layer with stream, head := said.foldl hear layer.head })

private theorem load_cases (length : UInt32) (layer : Enveloped) :
    (∃ stream payload said, load length layer = .ok () { layer with
      stream, payload, head := said.foldl hear layer.head } ∧ Whole said) ∨
    (∃ err stream, load length layer = .error err { layer with stream }) ∨
    ∃ cause stream said frame, load length layer = .error (.framing cause) { layer with
      stream, head := said.foldl hear layer.head } ∧ Broken said cause ∧ frame.length = length.toNat ∧
      layer.stream.unread = frame ++ stream.unread ∧
      ∀ head, accept frame head = .error cause (said.foldl hear head) := by
  unfold load
  split
  · exact .inr (.inl ⟨_, _, rfl⟩)
  split
  · exact .inr (.inl ⟨_, _, rfl⟩)
  cases hread : Stream.readFull length.toNat layer.stream with
  | error err after => exact .inr (.inl ⟨err, after, rfl⟩)
  | ok frame after =>
    dsimp only
    split
    · exact .inr (.inl ⟨_, after, rfl⟩)
    next hlong =>
      obtain ⟨said, ⟨payload, hwhole, haccept⟩ | ⟨cause, hbroken, haccept⟩⟩ := accept_hears frame
      · rw [haccept]
        exact .inl ⟨after, payload, said, rfl, hwhole⟩
      · rw [haccept]
        have hlength := Nat.le_antisymm (Stream.length_readFull_le hread) (Nat.le_of_not_lt hlong)
        exact .inr (.inr ⟨cause, after, said, frame, rfl, hbroken, hlength, Stream.unread_readFull hread, haccept⟩)

private theorem loaded_next (layer : Enveloped) : Loaded layer (next layer) := by
  rw [next]
  cases hread : Stream.readLength layer.stream with
  | error err stream => exact .unheard stream err
  | ok length? stream =>
    cases length? with
    | none => exact .ended stream
    | some length =>
      dsimp only
      rcases load_cases length { layer with stream } with ⟨last, payload, said, hload, hwhole⟩ | ⟨err, last, hload⟩ |
        ⟨cause, last, said, frame, hload, hbroken, hlength, hunread, hsaid⟩
      · rw [hload]
        exact .accepted last payload hwhole
      · rw [hload]
        exact .unheard last err
      · rw [hload]
        have hfront := Stream.unread_readLength hread
        rw [← hlength, hunread, ← List.append_assoc] at hfront
        exact .refused last hfront hbroken hsaid

/-! ## Whatever is done with a layer -/

inductive Doing where
  | does (act : Act)
  | reset
  | read (n : Nat)

def Doing.run (layer : Enveloped) : Doing → Enveloped
  | .does act => stateOf (act.run layer)
  | .reset => layer.reset
  | .read n => stateOf (Enveloped.read n layer)

/-- Whether an envelope may have been refused amid its headers, and none was accepted since. -/
def Doing.tears (layer : Enveloped) (torn : Bool) : Doing → Bool
  | .does _ => torn
  | .reset => false
  | .read n =>
    match Enveloped.read n layer with
    | .error err _ => torn || err.ofEntry
    | .ok got _ => torn && (layer.payload ≠ [] || got = [])

def doAll : List Doing → Enveloped × Bool → Enveloped × Bool
  | [], state => state
  | doing :: rest, (layer, torn) => doAll rest (doing.run layer, doing.tears layer torn)

def InStepUnless (torn : Bool) (layer : Enveloped) : Prop := torn = false → InStep layer.head

private theorem inStep_act {layer : Enveloped} (h : InStep layer.head) (act : Act) :
    InStep (stateOf (act.run layer)).head := by
  cases act with
  | set setting => cases setting <;> exact h
  | write bytes => exact h
  | flush =>
    simp only [Act.run, flush]
    repeat' split
    all_goals exact h

private theorem inStep_of_accepted {layer after : Enveloped} (h : next layer = .ok true after) :
    InStep after.head := by
  have hloaded := loaded_next layer
  rw [h] at hloaded
  cases hloaded with
  | accepted stream payload hwhole => exact hwhole.inStep layer.head

/-- A refusal leaves a layer in step, unless it may have come amid headers. -/
theorem inStep_of_refused {layer after : Enveloped} {err : WireError} (h : next layer = .error err after)
    (hstep : InStep layer.head) :
    InStep after.head ∨ err.ofEntry := by
  have hloaded := loaded_next layer
  rw [h] at hloaded
  cases hloaded with
  | unheard stream => exact .inl hstep
  | refused stream hunread hbroken hsaid =>
    obtain ⟨flags, seqId, encoding, incoming, lasting, hhead, ⟨flaw, rfl, hflaw⟩ | ⟨rfl, rfl⟩⟩ :=
      hbroken.foldl_hear layer.head
    · exact .inr hflaw
    · rw [hhead]
      exact .inl hstep

/-- What is entered is in step, and so is what is left at an end or after a failure, unless that came amid headers. -/
theorem await_inStep (layer : Enveloped) : match await layer with
    | .ok more after => (more ∧ layer.payload = [] → InStep after.head) ∧ (InStep layer.head → InStep after.head)
    | .error err after => InStep layer.head →
      InStep after.head ∨ err.ofEntry := by
  fun_induction await layer with
  | case1 layer hmore => exact ⟨fun h => absurd h.2 hmore, id⟩
  | case2 layer hdone err stream hread => exact .inl
  | case3 layer hdone stream hread => exact ⟨fun h => absurd h.1 Bool.false_ne_true, id⟩
  | case4 layer hdone length stream hread err after hload =>
    have hnext : next layer = .error err after := by
      rw [next, hread]
      dsimp only
      rw [hload]
    exact inStep_of_refused hnext
  | case5 layer hdone length stream hread entered hload ih =>
    have hnext : next layer = .ok true entered := by
      rw [next, hread]
      dsimp only
      rw [hload]
    have hentered := inStep_of_accepted hnext
    split at ih
    · exact ⟨fun _ => ih.2 hentered, fun _ => ih.2 hentered⟩
    · exact fun _ => ih hentered

private theorem inStepUnless_doing {layer : Enveloped} {torn : Bool} (h : InStepUnless torn layer)
    (doing : Doing) :
    InStepUnless (doing.tears layer torn) (doing.run layer) := by
  cases doing with
  | does act => exact fun htorn => inStep_act (h htorn) act
  | reset => exact fun _ => rfl
  | read n =>
    intro htorn
    rw [Doing.run]
    rcases Nat.eq_zero_or_pos n with rfl | hn
    · have hread : Enveloped.read 0 layer = .ok [] layer := rfl
      rw [Doing.tears, hread] at htorn
      rw [hread]
      exact h (by simpa using htorn)
    have hawait := await_inStep layer
    have hread := read_eq hn layer
    rw [Doing.tears, hread] at htorn
    rw [hread]
    cases hrun : await layer with
    | error err after =>
      rw [hrun] at hawait htorn
      obtain ⟨hbefore, herr⟩ := Bool.or_eq_false_iff.mp htorn
      rcases hawait (h hbefore) with hafter | hamid
      · exact hafter
      · rw [herr] at hamid
        cases hamid
    | ok more after =>
      rw [hrun] at hawait htorn
      cases more with
      | false => exact hawait.2 (h (by simpa using htorn))
      | true =>
        by_cases hout : layer.payload = []
        · exact hawait.1 ⟨rfl, hout⟩
        · exact hawait.2 (h (by simpa [hout] using htorn))

private theorem inStepUnless_doAll (doings : List Doing) {layer : Enveloped} {torn : Bool}
    (h : InStepUnless torn layer) :
    InStepUnless (doAll doings (layer, torn)).2 (doAll doings (layer, torn)).1 := by
  induction doings generalizing layer torn with
  | nil => exact h
  | cons doing rest ih => exact ih (inStepUnless_doing h doing)

/-- An envelope that is refused changes neither the sender that is shown nor anything to be written. If it is refused
before its head is looked at, or for its mark, nothing at all is changed; else what it said before its flaw is taken in,
the same whatever the head was, which concerns headers only if the flaw is among them. So whatever is done with a layer, the sender it shows is the one
that its headers name, unless the last envelope to say headers may have been refused amid them. -/
theorem refusal_keeps_sender (layer : Enveloped) (stream : Stream) (maxSize : UInt32) (doings : List Doing) :
    (∀ (after : Enveloped) (err : WireError), next layer = .error err after →
      (∃ stream flags seqId encoding incoming incomingLasting, after = { layer with
        stream, head := { layer.head with flags, seqId, encoding, incoming, incomingLasting } }) ∧
      (after.head = layer.head ∨ ∃ frame said cause, layer.stream.unread = Framed.encode frame ++ after.stream.unread ∧
        err = .framing cause ∧ Broken said cause ∧
        (∀ head, accept frame head = .error cause (said.foldl hear head)) ∧
        after.head = said.foldl hear layer.head) ∧
      (err.ofEntry = false →
        after.head.incoming = layer.head.incoming ∧ after.head.incomingLasting = layer.head.incomingLasting)) ∧
    ((doAll doings ({ stream, maxSize }, false)).2 = false →
      InStep (doAll doings ({ stream, maxSize }, false)).1.head) := by
  constructor
  · intro after err hnext
    have hloaded := loaded_next layer
    rw [hnext] at hloaded
    cases hloaded with
    | unheard stream => exact ⟨⟨stream, _, _, _, _, _, rfl⟩, .inl rfl, fun _ => ⟨rfl, rfl⟩⟩
    | refused stream hunread hbroken hsaid =>
      obtain ⟨flags, seqId, encoding, incoming, lasting, hhead, hheaders⟩ := hbroken.foldl_hear layer.head
      refine ⟨⟨stream, flags, seqId, encoding, incoming, lasting, by rw [hhead]⟩,
        .inr ⟨_, _, _, hunread, rfl, hbroken, hsaid, rfl⟩, ?_⟩
      intro hamid
      rcases hheaders with ⟨flaw, rfl, hflaw⟩ | ⟨rfl, rfl⟩
      · rw [WireError.ofEntry, hflaw] at hamid
        cases hamid
      · rw [hhead]
        exact ⟨rfl, rfl⟩
  · exact inStepUnless_doAll doings fun _ => rfl

def fromMe : Bytes :=
  [0, 0, 0, 27, 0x0f, 0xff, 0, 0, 0, 0, 0, 1, 0, 4, 0, 0, 1, 1, 8, 105, 100, 101, 110, 116, 105, 116, 121, 2, 109, 101,
    97]

/-- An envelope, without its length, that announces a transform behind its encoding. -/
def transformed : Bytes := [0x0f, 0xff, 0, 7, 0, 0, 0, 2, 0, 1, 2, 1, 5, 0]

/-- After an envelope that is accepted one is refused for its transform: flags, number and encoding are those of the
second, and headers and sender those of the first. -/
theorem refusal_keeps_sender_transform : ∃ start layer after : Enveloped,
    start = { stream := { unread := fromMe ++ Framed.encode transformed }, maxSize := 1000 } ∧
      layer.head = { seqId := 1, incoming := .ofList [("identity", "me")], peerIdentity := some "me" } ∧
      doAll [.read 8] (start, false) = (layer, false) ∧
      next layer = .error (.framing (.unsupportedTransform 5)) after ∧
      after.head = { layer.head with flags := 7, seqId := 2, encoding := .compact } ∧
      after.head.incoming = layer.head.incoming ∧ doAll [.read 8, .read 8] (start, false) = (after, false) ∧
      InStep after.head := by
  let start : Enveloped := { stream := { unread := fromMe ++ Framed.encode transformed }, maxSize := 1000 }
  let layer : Enveloped := { start with
    stream := { unread := Framed.encode transformed }
    head := { seqId := 1, incoming := .ofList [("identity", "me")], peerIdentity := some "me" } }
  let after : Enveloped := { layer with
    stream := {}, head := { layer.head with flags := 7, seqId := 2, encoding := .compact } }
  have hnext : next layer = .error (.framing (.unsupportedTransform 5)) after :=
    @next_whole layer transformed [] (by decide) (by decide) (List.append_nil _).symm
  have hall : doAll [.read 8, .read 8] (start, false) = (after, false) := by decide +kernel
  obtain ⟨hrefusal, hinStep⟩ := refusal_keeps_sender layer start.stream 1000 [.read 8, .read 8]
  obtain ⟨-, -, hheaders⟩ := hrefusal after _ hnext
  have hstep := hinStep (congrArg Prod.snd hall)
  rw [show doAll _ _ = _ from hall] at hstep
  exact ⟨start, layer, after, rfl, rfl, by decide +kernel, hnext, rfl, (hheaders rfl).1, hall, hstep⟩

/-- An envelope from one who calls himself you, with a second header that is cut short. -/
def tornFromYou : Bytes :=
  [0, 0, 0, 30, 0x0f, 0xff, 0, 7, 0, 0, 0, 2, 0, 5, 2, 0, 1, 2, 8, 105, 100, 101, 110, 116, 105, 116, 121, 3, 121, 111,
    117, 9, 120, 121]

/-- It is refused, and yet its flags, number, encoding and headers are shown, with the sender of the envelope before. -/
theorem refusal_shows_torn_headers :
    let layer : Enveloped := { stream := { unread := fromMe ++ tornFromYou }, maxSize := 1000 }
    let before := (Doing.read 8).run layer
    let after := (Doing.read 8).run before
    before.head = { seqId := 1, incoming := .ofList [("identity", "me")], peerIdentity := some "me" } ∧
      outcome 8 before = (.error (.framing (.corruptHeader .truncatedText)), after) ∧
      after.head = { before.head with
        flags := 7, seqId := 2, encoding := .compact, incoming := .ofList [("identity", "you")] } ∧
      ¬InStep after.head := by
  intro layer before after
  have hbefore : before.head =
      { seqId := 1, incoming := .ofList [("identity", "me")], peerIdentity := some "me" } := by decide +kernel
  have hafter : after.head = { before.head with
      flags := 7, seqId := 2, encoding := .compact, incoming := .ofList [("identity", "you")] } := by decide +kernel
  refine ⟨hbefore, by decide +kernel, hafter, fun hstep => ?_⟩
  rw [InStep, hafter, hbefore] at hstep
  exact absurd hstep (by decide +kernel)

end Enveloped
end RpcWire
