import RpcWire.Proofs.Cuts
import RpcWire.Proofs.Sending

/-! Everything that can be written through envelopes and read back: what a reader is told of an envelope from its first
octet to the next envelope is what the writer said when it sent it. -/
namespace RpcWire

namespace Headers

private theorem place_last {name text : String} {entries : List (String × String)}
    (h : ∀ entry ∈ entries, entry.1 < name) :
    place name text entries = entries ++ [(name, text)] := by
  induction entries with
  | nil => rfl
  | cons first rest ih =>
    obtain ⟨hfirst, hrest⟩ := List.forall_mem_cons.mp h
    have hless : ¬name < first.1 := fun hlt => String.lt_irrefl _ (String.lt_trans hfirst hlt)
    have hdiffer : name ≠ first.1 := fun heq => String.lt_irrefl name (heq ▸ hfirst)
    rw [place, if_neg hless, if_neg hdiffer, ih hrest, List.cons_append]

private theorem entries_insertMany (headers : Headers) {entries : List (String × String)}
    (h : (headers.entries ++ entries).Pairwise (·.1 < ·.1)) :
    (headers.insertMany entries).entries = headers.entries ++ entries := by
  induction entries generalizing headers with
  | nil => exact (List.append_nil _).symm
  | cons entry rest ih =>
    have hplace : (headers.insert entry.1 entry.2).entries = headers.entries ++ [entry] :=
      place_last fun other hm => (List.pairwise_append.mp h).2.2 other hm entry List.mem_cons_self
    have hsplit : headers.entries ++ entry :: rest = (headers.insert entry.1 entry.2).entries ++ rest := by
      rw [hplace, List.append_assoc, List.singleton_append]
    rw [hsplit] at h ⊢
    exact ih _ h

/-- Headers are made of their entries. -/
theorem ofList_entries (headers : Headers) : ofList headers.entries = headers := by
  have h : (ofList headers.entries).entries = [] ++ headers.entries := entries_insertMany ∅ headers.sorted
  cases hall : ofList headers.entries
  cases headers
  simp_all

/-- Headers over others: a name of both stands for the later text. -/
theorem get?_insertMany (headers other : Headers) (name : String) :
    (headers.insertMany other.entries).get? name = (other.get? name).or (headers.get? name) := by
  obtain ⟨entries, hsorted⟩ := other
  simp only [get?]
  induction entries generalizing headers with
  | nil => rfl
  | cons entry rest ih =>
    obtain ⟨label, text⟩ := entry
    obtain ⟨hfirst, hrest⟩ := List.pairwise_cons.mp hsorted
    have hstep : (headers.insertMany ((label, text) :: rest)).entries =
        ((headers.insert label text).insertMany rest).entries := rfl
    have hinsert : (headers.insert label text).entries.lookup name = _ := lookup_place
    rw [hstep, ih _ hrest, hinsert, lookup_cons]
    by_cases hname : name = label
    · subst hname
      have hnone : rest.lookup name = none :=
        List.lookup_eq_none_iff.mpr fun other hm => by simpa using String.ne_of_lt (hfirst other hm)
      simp [hnone]
    · simp [hname]

end Headers

/-- An encoding is read back from its number unless the number is reserved and yet stands for a named one. -/
theorem Encoding.ofWire_toWire_eq_iff {encoding : Encoding} :
    ofWire encoding.toWire = encoding ↔ ∀ number, encoding = .reserved number → 3 ≤ number := by
  cases encoding with
  | binary | json | compact => exact ⟨nofun, fun _ => rfl⟩
  | reserved number =>
    have hnamed : 3 ≤ number ↔ number ≠ 0 ∧ number ≠ 1 ∧ number ≠ 2 := by
      simp only [UInt32.le_iff_toNat_le, ne_eq, ← UInt32.toNat_inj, UInt32.toNat_ofNat, Nat.reducePow, Nat.reduceMod]
      omega
    simp only [toWire, ofWire, reserved.injEq, forall_eq', hnamed]
    by_cases hzero : number = 0
    · simp [hzero]
    by_cases hone : number = 1
    · simp [hone]
    by_cases htwo : number = 2
    · simp [htwo]
    simp [hzero, hone, htwo]

namespace EnvelopeHead

/-- What an envelope that was sent with head `sent` tells of itself. An encoding is told by its number alone, so that
one which has the number of another is taken for that. -/
structure Says (sent head : EnvelopeHead) : Prop where
  encoding : head.encoding = .ofWire sent.encoding.toWire
  sameEncoding : head.encoding = sent.encoding ↔ ∀ number, sent.encoding = .reserved number → 3 ≤ number
  seqId : head.seqId = sent.seqId
  flags : head.flags = sent.flags
  incoming : head.incoming = match sent.identity with
    | none => sent.outgoing
    | some identity => (sent.outgoing.insert identityName identity).insert versionName versionText
  peerIdentity : head.peerIdentity = head.incoming.get? identityName

private theorem ofList_onceEntries (sent : EnvelopeHead) : .ofList sent.onceEntries = match sent.identity with
    | none => sent.outgoing
    | some identity => (sent.outgoing.insert identityName identity).insert versionName versionText := by
  have hsplit (more : List (String × String)) :
      Headers.ofList (sent.outgoing.entries ++ more) = sent.outgoing.insertMany more := by
    rw [Headers.ofList, Headers.insertMany, List.foldl_append]
    exact congrArg (Headers.insertMany · more) sent.outgoing.ofList_entries
  rw [onceEntries, hsplit]
  cases sent.identity <;> rfl

private theorem says_taking (sent head : EnvelopeHead) : sent.Says (sent.taking head) where
  encoding := rfl
  sameEncoding := Encoding.ofWire_toWire_eq_iff
  seqId := rfl
  flags := rfl
  incoming := sent.ofList_onceEntries
  peerIdentity := rfl

end EnvelopeHead

namespace Enveloped

/-- What a writer says in the envelopes to come. -/
inductive Setting where
  | once (name text : String)
  | lasting (name text : String)
  | noneOnce
  | noneLasting
  | identity (name : String)
  | flags (bits : UInt16)
  | seqId (number : UInt32)
  | encoding (next : Encoding)

def Setting.apply (head : EnvelopeHead) : Setting → EnvelopeHead
  | .once name text => { head with outgoing := head.outgoing.insert name text }
  | .lasting name text => { head with outgoingLasting := head.outgoingLasting.insert name text }
  | .noneOnce => { head with outgoing := ∅ }
  | .noneLasting => { head with outgoingLasting := ∅ }
  | .identity name => { head with identity := some name }
  | .flags bits => { head with flags := bits }
  | .seqId number => { head with seqId := number }
  | .encoding next => { head with encoding := next }

inductive Act where
  | set (setting : Setting)
  | write (bytes : Bytes)
  | flush

def Act.run : Act → EnvelopedM Unit
  | .set setting => modify fun layer => { layer with head := setting.apply layer.head }
  | .write bytes => Enveloped.write bytes
  | .flush => Enveloped.flush

/-- What the writer said when it sent an envelope, and what it put into it. -/
structure Envelope where
  head : EnvelopeHead
  payload : Bytes
  deriving DecidableEq

/-- Octets of the envelope after its length. -/
def Envelope.size (envelope : Envelope) : Nat :=
  EnvelopeHead.fixedSize + envelope.head.encodeBlock.length + envelope.payload.length

def Envelope.octets (envelope : Envelope) : Bytes :=
  encode envelope.head envelope.payload

def Act.sends (layer : Enveloped) : Act → List Envelope
  | .flush => [⟨layer.head, layer.pending⟩].filter (·.payload ≠ [])
  | _ => []

def runAll : List Act → EnvelopedM (List Envelope)
  | [] => return []
  | act :: acts => do
    let layer ← get
    act.run
    return act.sends layer ++ (← runAll acts)

def written : Bytes → List Act → List Bytes
  | _, [] => []
  | before, .write bytes :: acts => written (before ++ bytes) acts
  | before, .flush :: acts => before :: written [] acts
  | before, .set _ :: acts => written before acts

/-- What one act does, if it is not refused. -/
theorem Act.run_ok {act : Act} {layer after : Enveloped} (h : act.run layer = .ok () after) :
    after.stream.written = layer.stream.written ++ (act.sends layer).flatMap Envelope.octets ∧
    (∀ envelope ∈ act.sends layer, envelope.payload ≠ [] ∧ envelope.head.Fits) ∧
    ∀ acts, (written layer.pending (act :: acts)).filter (· ≠ []) =
      (act.sends layer).map (·.payload) ++ (written after.pending acts).filter (· ≠ []) := by
  cases act with
  | set setting =>
    cases h
    exact ⟨(List.append_nil _).symm, nofun, fun _ => rfl⟩
  | write bytes =>
    cases h
    exact ⟨(List.append_nil _).symm, nofun, fun _ => rfl⟩
  | flush =>
    by_cases hpending : layer.pending = []
    · have hnone : Enveloped.flush layer = .ok () layer := by rw [Enveloped.flush, if_pos hpending]
      obtain rfl : layer = after := (EStateM.Result.ok.inj (hnone.symm.trans h)).2
      simp [Act.sends, written, hpending]
    · obtain ⟨⟨⟨hfits, -⟩, -⟩, -, rfl⟩ := (flush_okIff hpending).eq_of_ok h
      have hsends : Act.sends layer .flush = [⟨layer.head, layer.pending⟩] := by simp [Act.sends, hpending]
      rw [hsends]
      refine ⟨by simp [Stream.sent, Envelope.octets], List.forall_mem_singleton.mpr ⟨hpending, hfits⟩, fun acts => ?_⟩
      simp [written, hpending]

/-- What the acts of a writer do, if none is refused. -/
theorem runAll_ok {acts : List Act} {layer after : Enveloped} {envelopes : List Envelope}
    (h : runAll acts layer = .ok envelopes after) :
    after.stream.written = layer.stream.written ++ envelopes.flatMap Envelope.octets ∧
    (∀ envelope ∈ envelopes, envelope.payload ≠ [] ∧ envelope.head.Fits) ∧
    envelopes.map (·.payload) = (written layer.pending acts).filter (· ≠ []) := by
  induction acts generalizing layer envelopes with
  | nil =>
    cases h
    exact ⟨(List.append_nil _).symm, nofun, rfl⟩
  | cons act acts ih =>
    rw [runAll, bind_of_ok (get_ok layer)] at h
    obtain ⟨⟨⟩, middle, hact, h⟩ := ok_of_bind_ok h
    obtain ⟨others, last, hothers, h⟩ := ok_of_bind_ok h
    cases h
    obtain ⟨hwritten, hfit, hpayloads⟩ := Act.run_ok hact
    obtain ⟨hwritten', hfit', hpayloads'⟩ := ih hothers
    refine ⟨?_, List.forall_mem_append.mpr ⟨hfit, hfit'⟩, ?_⟩
    · rw [hwritten', hwritten, List.append_assoc, List.flatMap_append]
    · rw [List.map_append, hpayloads', hpayloads]

/-- What a reader that had a certain head is told by all envelopes that it has begun to read. -/
structure Told (start : EnvelopeHead) (begun : List Envelope) (head : EnvelopeHead) : Prop where
  nothing : begun = [] → head = start
  last : ∀ envelope ∈ begun.getLast?, envelope.head.Says head
  lasting (name : String) : head.incomingLasting.get? name =
    begun.reverse.findSome? fun envelope => envelope.head.outgoingLasting.get? name

private theorem Told.next {start head : EnvelopeHead} {begun : List Envelope} (h : Told start begun head)
    (envelope : Envelope) : Told start (begun ++ [envelope]) (envelope.head.taking head) where
  nothing hnone := absurd hnone (by simp)
  last := by
    rw [List.getLast?_concat]
    rintro _ ⟨⟩
    exact envelope.head.says_taking head
  lasting name := by
    rw [List.reverse_append, List.reverse_singleton, List.singleton_append, List.findSome?_cons]
    have hover := head.incomingLasting.get?_insertMany envelope.head.outgoingLasting name
    rw [h.lasting name] at hover
    refine hover.trans ?_
    cases envelope.head.outgoingLasting.get? name <;> rfl

/-- A read inside an envelope takes octets from the front of its payload. -/
theorem read_inside {n : Nat} (hn : n ≠ 0) {layer : Enveloped} (h : layer.payload ≠ []) :
    read n layer = .ok (layer.payload.take n) { layer with payload := layer.payload.drop n } := by
  have hawait : await layer = .ok true layer := by rw [await, if_pos h]
  rw [read, if_neg hn, bind_of_ok hawait]
  rfl

/-- Of the envelopes on the stream, those of `begun` are entered and `later` are not; of the last one entered, `rest`
is not read. -/
structure Between (start : EnvelopeHead) (begun later : List Envelope) (rest : Bytes) (layer : Enveloped) : Prop where
  payload : layer.payload = rest
  unread : layer.stream.unread = later.flatMap Envelope.octets
  ending : layer.stream.ending = none
  told : Told start begun layer.head
  progress : begun = [] ∧ rest = [] ∨
    ∃ past last got, begun = past ++ [last] ∧ last.payload = got ++ rest ∧ got ≠ []
  sound : ∀ envelope ∈ later, envelope.payload ≠ [] ∧ envelope.head.Fits ∧ envelope.size ≤ layer.maxSize.toNat

/-- Blocks that a reader has ahead: what is left of the envelope it is in, then the payloads of the others. -/
def Ahead (start : EnvelopeHead) (envelopes : List Envelope) (blocks : List Bytes) (layer : Enveloped) : Prop :=
  ∃ begun later rest, envelopes = begun ++ later ∧ Between start begun later rest layer ∧
    blocks = [rest].filter (· ≠ []) ++ later.map (·.payload)

/-- So many octets of the envelopes in order begin the envelopes that are entered. -/
theorem Between.begun_eq {start : EnvelopeHead} {begun later : List Envelope} {rest : Bytes} {layer : Enveloped}
    (h : Between start begun later rest layer) {count : Nat}
    (hcount : count + rest.length = (begun.map (·.payload)).flatten.length) :
    RpcWire.begun ((begun ++ later).map (·.payload)) count = begun.length := by
  rcases h.progress with ⟨rfl, rfl⟩ | ⟨past, last, got, rfl, hlast, hgot⟩
  · obtain rfl : count = 0 := hcount
    exact begun_zero _
  · have hsome : count = (past.map (·.payload)).flatten.length + got.length := by
      simp only [List.map_append, List.map_cons, List.map_nil, List.flatten_append, List.flatten_singleton, hlast,
        List.length_append] at hcount
      omega
    rw [hsome, List.append_assoc, List.map_append, List.singleton_append, List.map_cons, hlast,
      begun_inside _ _ hgot, List.length_map, List.length_append, List.length_singleton]

private theorem blockReader_ahead (start : EnvelopeHead) (envelopes : List Envelope) :
    BlockReader read (Ahead start envelopes) where
  idle _ := rfl
  ended := by
    rintro n layer hn ⟨begun, later, rest, hall, h, hblocks⟩
    obtain ⟨hrest, hlater⟩ := List.append_eq_nil_iff.mp hblocks.symm
    obtain rfl : rest = [] := by simpa using hrest
    obtain rfl := List.map_eq_nil_iff.mp hlater
    exact ⟨layer, read_end hn h.payload h.unread h.ending, begun, [], [], hall, h, rfl⟩
  piece := by
    rintro n block blocks layer hn ⟨begun, later, rest, hall, h, hblocks⟩
    by_cases hrest : rest = []
    · -- Between envelopes, the block in turn is the payload of the next one.
      subst hrest
      cases later with
      | nil => cases hblocks
      | cons envelope later =>
        obtain ⟨rfl, rfl⟩ := List.cons.inj hblocks
        obtain ⟨⟨hne, hfits, hle⟩, hsound⟩ := List.forall_mem_cons.mp h.sound
        have hawait := await_front h.payload h.unread hne hfits hle
        have hread := (read_of_await hn hawait hne).trans (read_inside hn hne)
        have htaken : envelope.payload.take n ≠ [] := by simp [hne, hn]
        refine ⟨_, envelope.payload.drop n, _, (List.take_append_drop n _).symm, htaken, List.length_take_le n _,
          hread, begun ++ [envelope], later, _, ?_, ⟨rfl, rfl, h.ending, h.told.next envelope, ?_, hsound⟩, rfl⟩
        · rw [hall, List.append_assoc, List.singleton_append]
        · exact .inr ⟨begun, envelope, _, rfl, (List.take_append_drop n _).symm, htaken⟩
    · have hone : [rest].filter (· ≠ []) = [rest] := by simp [hrest]
      rw [hone] at hblocks
      obtain ⟨rfl, rfl⟩ := List.cons.inj hblocks
      have hread := read_inside hn (h.payload ▸ hrest)
      rw [h.payload] at hread
      refine ⟨_, _, _, (List.take_append_drop n _).symm, by simp [hrest, hn], List.length_take_le n _, hread,
        begun, later, _, hall, ⟨rfl, h.unread, h.ending, h.told, ?_, h.sound⟩, rfl⟩
      rcases h.progress with ⟨-, hnone⟩ | ⟨past, last, got, hbegun, hlast, hgot⟩
      · exact absurd hnone hrest
      · refine .inr ⟨past, last, got ++ block.take n, hbegun, ?_, by simp [hgot]⟩
        rw [hlast, List.append_assoc, List.take_append_drop]

/-- A writer none of whose acts is refused sends what it writes up to each flush as one envelope. Whoever takes
envelopes so long reads these payloads piece by piece, and from the first octet of an envelope to the first of the next
one it is told what the writer said when it sent that envelope, and the lasting headers of all so far. -/
theorem runAll_delivers {start layer : Enveloped} {acts : List Act} {envelopes : List Envelope}
    (hpending : start.pending = []) (h : runAll acts start = .ok envelopes layer) :
    envelopes.map (·.payload) = (written [] acts).filter (· ≠ []) ∧
    layer.stream.written = start.stream.written ++ envelopes.flatMap Envelope.octets ∧
    ∀ (reader : Enveloped) (sizes : List Nat), reader.payload = [] → reader.head.incomingLasting = ∅ →
      reader.stream.unread = envelopes.flatMap Envelope.octets → reader.stream.ending = none →
      (∀ envelope ∈ envelopes, envelope.size ≤ reader.maxSize.toNat) →
      ∃ pieces after, sizes.mapM read reader = .ok pieces after ∧
        Cuts (envelopes.map (·.payload)) sizes pieces ∧
        ((∀ n ∈ sizes, n ≠ 0) → (envelopes.map (·.payload)).flatten.length < sizes.length →
          pieces.flatten = (envelopes.map (·.payload)).flatten ∧ pieces.getLast? = some []) ∧
        Told reader.head (envelopes.take (begun (envelopes.map (·.payload)) pieces.flatten.length)) after.head := by
  obtain ⟨hwritten, hsent, hpayloads⟩ := runAll_ok h
  rw [hpending] at hpayloads
  refine ⟨hpayloads, hwritten, fun reader sizes hpayload hlasting hunread hend hadmits => ?_⟩
  have htold : Told reader.head [] reader.head := ⟨fun _ => rfl, nofun, fun _ => by rw [hlasting]; rfl⟩
  have hstate : Ahead reader.head envelopes (envelopes.map (·.payload)) reader :=
    ⟨[], envelopes, [], rfl, ⟨hpayload, hunread, hend, htold, .inl ⟨rfl, rfl⟩, fun envelope hm =>
      ⟨(hsent envelope hm).1, (hsent envelope hm).2, hadmits envelope hm⟩⟩, rfl⟩
  obtain ⟨pieces, left, after, hread, hcuts, ⟨begun, later, rest, rfl, hbetween, rfl⟩, hall⟩ :=
    (blockReader_ahead reader.head envelopes).mapM sizes hstate
  refine ⟨pieces, after, hread, hcuts, hcuts.flatten_eq, ?_⟩
  have hcount : pieces.flatten.length + rest.length = (begun.map (·.payload)).flatten.length := by
    have hlength := congrArg List.length hall
    have hrest : ([rest].filter (· ≠ [])).flatten = rest := by by_cases hrest : rest = [] <;> simp [hrest]
    simp only [List.flatten_append, hrest, List.map_append, List.length_append] at hlength
    omega
  rw [hbetween.begun_eq hcount, List.take_left]
  exact hbetween.told

/-- Two envelopes of one writer, the first with a header of its own, the second with another text for the lasting
header, and both with an encoding that has no name. -/
theorem runAll_delivers_two : ∃ envelopes layer,
    runAll [.set (.lasting "p" "x"), .set (.once "a" "1"), .set (.identity "me"), .set (.encoding (.reserved 300)),
        .write [1, 2], .write [3], .flush, .flush, .set (.lasting "p" "y"), .set (.seqId 7), .write [4], .flush]
      { stream := {}, maxSize := 60 } = .ok envelopes layer ∧
    envelopes.map (·.payload) = [[1, 2, 3], [4]] ∧
    ∃ pieces after, [2, 5, 1, 1, 1].mapM read
        { stream := { unread := layer.stream.written, chunk := some 3 }, maxSize := 70 } = .ok pieces after ∧
      pieces.flatten = [1, 2, 3, 4] ∧ after.head.seqId = 7 ∧ after.head.encoding = .reserved 300 ∧
      after.head.incoming = .ofList [("identity", "me"), ("id_version", "1")] ∧ after.head.peerIdentity = some "me" ∧
      after.head.incomingLasting.get? "p" = some "y" := by
  obtain ⟨first, hfirst⟩ : ∃ head : EnvelopeHead, head =
      { encoding := .reserved 300
        identity := some "me"
        outgoing := .ofList [("a", "1")]
        outgoingLasting := .ofList [("p", "x")] } := ⟨_, rfl⟩
  obtain ⟨second, hsecond⟩ : ∃ head : EnvelopeHead, head =
      { encoding := .reserved 300
        seqId := 7
        identity := some "me"
        outgoingLasting := .ofList [("p", "y")] } := ⟨_, rfl⟩
  have hsent : (runAll [.set (.lasting "p" "x"), .set (.once "a" "1"), .set (.identity "me"),
      .set (.encoding (.reserved 300)), .write [1, 2], .write [3], .flush, .flush, .set (.lasting "p" "y"),
      .set (.seqId 7), .write [4], .flush]).run' { stream := {}, maxSize := 60 } =
        some [⟨first, [1, 2, 3]⟩, ⟨second, [4]⟩] := by
    rw [hfirst, hsecond]
    decide +kernel
  obtain ⟨layer, hrun⟩ := exists_ok_of_run' hsent
  have hsizes : ∀ envelope ∈ [(⟨first, [1, 2, 3]⟩ : Envelope), ⟨second, [4]⟩], envelope.size ≤ 70 := by
    rw [hfirst, hsecond]
    decide +kernel
  obtain ⟨-, hwritten, hreads⟩ := runAll_delivers rfl hrun
  obtain ⟨pieces, after, hread, -, hall, htold⟩ := hreads
    { stream := { unread := layer.stream.written, chunk := some 3 }, maxSize := 70 } [2, 5, 1, 1, 1] rfl rfl
    hwritten rfl hsizes
  have hpieces : pieces.flatten = [1, 2, 3, 4] := (hall (by decide) (show 4 < 5 by decide)).1
  rw [hpieces] at htold
  have hlast : second.Says after.head := htold.last ⟨second, [4]⟩ rfl
  have hlasting := htold.lasting "p"
  obtain ⟨hencoding, -, hseqId, -, hincoming, hpeer⟩ := hlast
  rw [hincoming] at hpeer
  rw [hfirst, hsecond] at hlasting
  rw [hsecond] at hencoding hseqId hincoming hpeer
  refine ⟨_, layer, hrun, rfl, pieces, after, hread, hpieces, hseqId, hencoding.trans ?_, hincoming.trans ?_,
    hpeer.trans ?_, hlasting.trans ?_⟩ <;> decide +kernel

/-- A reserved number that stands for a named encoding is sent, and the reader is told the named one. -/
theorem reserved_read_as_named :
    (∃ envelope layer after, runAll [.set (.encoding (.reserved 0)), .write [1], .flush]
        { stream := {}, maxSize := 60 } = .ok [envelope] layer ∧ envelope.head.encoding = .reserved 0 ∧
      read 1 { stream := { unread := envelope.octets }, maxSize := 60 } = .ok [1] after ∧
      after.head.encoding = .binary) ∧
    ¬∀ (start layer reader after : Enveloped) (acts : List Act) (envelope : Envelope) (piece : Bytes),
      start.pending = [] → runAll acts start = .ok [envelope] layer → reader.payload = [] →
      reader.stream.unread = envelope.octets → reader.stream.ending = none →
      envelope.size ≤ reader.maxSize.toNat → read 1 reader = .ok piece after →
        after.head.encoding = envelope.head.encoding := by
  obtain ⟨envelope, henvelope⟩ : ∃ envelope : Envelope, envelope = ⟨{ encoding := .reserved 0 }, [1]⟩ := ⟨_, rfl⟩
  have hsent : (runAll [.set (.encoding (.reserved 0)), .write [1], .flush]).run' { stream := {}, maxSize := 60 } =
      some [envelope] := by
    rw [henvelope]
    decide +kernel
  obtain ⟨layer, hrun⟩ := exists_ok_of_run' hsent
  obtain ⟨after, hread, htold⟩ : ∃ after, read 1 { stream := { unread := envelope.octets }, maxSize := 60 } =
      .ok [1] after ∧ after.head.encoding = .binary := by
    apply exists_ok_of_look
    rw [henvelope]
    decide +kernel
  have hreserved : envelope.head.encoding = .reserved 0 := by rw [henvelope]
  refine ⟨⟨envelope, layer, after, hrun, hreserved, hread, htold⟩, fun hall => ?_⟩
  have hsame := hall _ layer _ after _ envelope [1] rfl hrun rfl rfl rfl (by rw [henvelope]; decide +kernel) hread
  rw [htold, hreserved] at hsame
  cases hsame

end Enveloped
end RpcWire
