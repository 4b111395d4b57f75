import RpcWire.Proofs.Courses

/-! What is told last is in force. An envelope tells its reader an encoding and a number, and so does whoever writes in
between. As long as nothing else is told in between, the messages of an envelope are read in its encoding and answered
under its number. -/
namespace RpcWire

def Session.ReadsIn (session : Session) (encoding : Encoding) : Prop :=
  ∃ loaded : Channel, negotiateRead session = switchTo encoding (session.mapChannel fun _ => loaded)

namespace Course
variable {config : SessionConfig} {course course' : Course}

/-- An envelope that is entered puts in force what it names. -/
theorem heading_past {parcels : List Parcel} (hcurrent : course.current = []) (h : (course.past parcels).current ≠ []) :
    (course.past parcels).heading = (course.past parcels).named := by
  induction parcels generalizing course with
  | nil => exact absurd hcurrent h
  | cons parcel later ih =>
    simp only [past, hcurrent] at h ⊢
    cases hcontents : parcel.contents with
    | nil =>
      rw [hcontents] at h
      exact ih rfl h
    | cons enclosed others =>
      cases later <;> rfl

/-- As long as messages are left in an envelope, none is entered. -/
theorem ahead_of_current (h : course.current ≠ []) : course.ahead = course := by
  rw [ahead]
  cases course.later with
  | nil => rfl
  | cons parcel later =>
    rw [past]
    split
    · next hcurrent => exact absurd hcurrent h
    · rfl

/-- As long as messages are left in an envelope, its encoding is in force, and the codec at work is one for it. -/
def Agrees (course : Course) : Prop :=
  course.current ≠ [] → course.heading.encoding = course.named.encoding ∧ course.codec.encoding = course.named.encoding

private theorem Agrees.ahead (h : course.Agrees) (hcurrent : course.ahead.current ≠ []) :
    course.ahead.heading.encoding = course.ahead.named.encoding := by
  by_cases hnone : course.current = []
  · exact congrArg Heading.encoding (heading_past hnone hcurrent)
  · rw [ahead_of_current hnone]
    exact (h hnone).1

end Course

namespace Turn

/-- Another encoding may be in force after the turn than the one of the last envelope. -/
def Recodes : Turn → Prop
  | .write (.switchTo _) => True
  | .write (.tell (.encoding _)) => True
  | _ => False

/-- Another number may be in force after the turn. -/
def Renumbers : Turn → Prop
  | .readHead => True
  | .write (.tell (.seqId _)) => True
  | .write (.write (.messageBegin header)) => header.kind.isRequest
  | _ => False

end Turn

namespace Course
variable {config : SessionConfig} {course course' : Course} {turn : Turn}

/-- What each of the turns keeps holds after all of them. -/
theorem goes_keeps {p : Course → Prop} {turns : List Turn} (h : p course)
    (hturns : ∀ turn ∈ turns, ∀ ⦃course course'⦄, p course → course.next config turn = some course' → p course')
    (hgoes : course.goes config turns = some course') : p course' := by
  induction turns generalizing course with
  | nil =>
    obtain rfl := Option.some.inj hgoes
    exact h
  | cons turn rest ih =>
    obtain ⟨middle, hnext, hrest⟩ := Option.bind_eq_some_iff.mp hgoes
    obtain ⟨hturn, hothers⟩ := List.forall_mem_cons.mp hturns
    exact ih (hturn h hnext) hothers hrest

private theorem Agrees.next (h : course.Agrees) (hturn : ¬turn.Recodes)
    (hnext : course.next config turn = some course') :
    course'.Agrees := by
  cases turn with
  | readHead =>
    obtain ⟨-, ⟨hcurrent, rfl⟩ | ⟨enclosed, others, hcurrent, hfits, rfl⟩⟩ := next_readHead hnext
    · exact fun hleft => absurd hcurrent hleft
    · have hsame := h.ahead (by rw [hcurrent]; exact List.cons_ne_nil _ _)
      exact fun _ => ⟨hsame, (course.codec.encoding_prepared config _).trans (hfits.symm.trans hsame)⟩
  | readBody =>
    obtain ⟨format, fields, -, -, -, rfl⟩ := next_readBody hnext
    exact h
  | write doing =>
    obtain rfl := Option.some.inj hnext
    cases doing with
    | switchTo encoding => exact absurd trivial hturn
    | tell setting =>
      cases setting with
      | encoding next => exact absurd trivial hturn
      | _ => exact h
    | write writing =>
      have hcodec := writing.encoding_recode course.codec
      cases writing with
      | messageBegin header => exact fun hleft => ⟨(h hleft).2, hcodec.trans (h hleft).2⟩
      | _ => exact fun hleft => ⟨(h hleft).1, hcodec.trans (h hleft).2⟩

theorem seqId_next (hturn : ¬turn.Renumbers) (hnext : course.next config turn = some course') :
    course'.heading.seqId = course.heading.seqId := by
  cases turn with
  | readHead => exact absurd trivial hturn
  | readBody =>
    obtain ⟨format, fields, -, -, -, rfl⟩ := next_readBody hnext
    rfl
  | write doing =>
    obtain rfl := Option.some.inj hnext
    cases doing with
    | switchTo encoding => rfl
    | tell setting =>
      cases setting with
      | seqId number => exact absurd trivial hturn
      | _ => rfl
    | write writing =>
      cases writing with
      | messageBegin header => exact if_neg hturn
      | _ => rfl

theorem goes_append {before since : List Turn} (h : course.goes config before = some course') :
    course.goes config (before ++ since) = course'.goes config since := by
  induction before generalizing course with
  | nil =>
    obtain rfl := Option.some.inj h
    rfl
  | cons turn rest ih =>
    obtain ⟨middle, hnext, hrest⟩ := Option.bind_eq_some_iff.mp h
    rw [List.cons_append, goes, hnext]
    exact ih hrest

end Course

/-- The next message is read by the codec for the encoding in force, which is that of its envelope if it is the first
one in it, or if nothing else was told since; then it is read as it was sent. What is written afterwards goes out under
the number that was in force as it was read, unless another message is read, another number told or a call written. -/
theorem Session.reads_and_answers_as_told {config : SessionConfig} {stream : Stream} {session : Session}
    {parcels : List Parcel} {before : List Turn} {asked : Course} {enclosed : Enclosed} {others : List Enclosed}
    (htransport : config.transport = .header) (hopen : ofStream? config stream = .ok session)
    (hunread : stream.unread = parcels.flatMap Parcel.octets) (hadmitted : ∀ parcel ∈ parcels, parcel.Admitted config)
    (hbefore : (Course.opened session.endpoint.codec parcels).goes config before = some asked)
    (hunder : asked.under = none) (hcurrent : asked.ahead.current = enclosed :: others) :
    enclosed.format.encoding = asked.ahead.named.encoding ∧
    (asked.current = [] → asked.ahead.heading = asked.ahead.named) ∧
    (Turn.runAll before session).ReadsIn asked.ahead.heading.encoding ∧
    (asked.Agrees → ∃ after, (Turn.runAll before session).Receives enclosed.message enclosed.format after) ∧
    ∀ since course, asked.goes config (.readHead :: since) = some course →
      (∀ format fields, course.under = some (format, fields) → course.codec.format = format → course.codec.Idle →
        ∃ after, onWire (Value.read .struct) (Turn.runAll (before ++ .readHead :: since) session) =
          .ok (format.image (.struct fields)) after) ∧
      (Turn.runAll (before ++ .readHead :: since) session).SendsUnder course.heading ∧
      (asked.Agrees → (∀ turn ∈ since, ¬turn.Recodes) → course.Agrees) ∧
      ((∀ turn ∈ since, ¬turn.Renumbers) → course.heading.seqId = asked.ahead.heading.seqId) := by
  have hstart := Course.Followed.of_open htransport hopen hunread hadmitted
  have hasked := hstart.goes hbefore
  obtain ⟨entered, -, hahead⟩ := hasked.ahead hunder
  have hnamed : enclosed.format.encoding = asked.ahead.named.encoding :=
    (hahead.admitted.current enclosed (by rw [hcurrent]; exact List.mem_cons_self)).2
  have hleft : asked.ahead.current ≠ [] := by
    rw [hcurrent]
    exact List.cons_ne_nil _ _
  refine ⟨hnamed, fun hnone => Course.heading_past hnone hleft, ?_, ?_, ?_⟩
  · obtain ⟨loaded, hnegotiate, -⟩ := hasked.negotiates hunder hcurrent
    exact ⟨loaded, hnegotiate⟩
  · exact fun hagrees => hasked.receives hunder hcurrent ((hagrees.ahead hleft).trans hnamed.symm)
  · intro since course hgoes
    have hnow := hstart.goes ((Course.goes_append hbefore).trans hgoes)
    obtain ⟨begun, hnext, hsince⟩ := Option.bind_eq_some_iff.mp hgoes
    refine ⟨fun format fields hbody hformat hidle => ?_, hnow.sends, fun hagrees hturns => ?_, fun hturns => ?_⟩
    · obtain ⟨after, hread, -⟩ := hnow.reads_body hbody hformat hidle
      exact ⟨after, hread⟩
    · have hbegun : begun.Agrees := hagrees.next (show ¬Turn.readHead.Recodes from id) hnext
      exact Course.goes_keeps hbegun (fun turn hmem _ _ h => h.next (hturns turn hmem)) hsince
    · have hbegun : begun.heading.seqId = asked.ahead.heading.seqId := by
        obtain ⟨-, ⟨hnone, -⟩ | ⟨_, _, -, -, rfl⟩⟩ := Course.next_readHead hnext
        · exact absurd hnone hleft
        · rfl
      exact Course.goes_keeps hbegun (fun turn hmem _ _ h hturn => (Course.seqId_next (hturns turn hmem) hturn).trans h)
        hsince

/-! ## Calls in envelopes -/

def Enclosed.call (format : Format) (name : String) (seqId : Int32) : Enclosed :=
  ⟨format, .plain ⟨name, .call, seqId⟩ []⟩

theorem Enclosed.admitted_call (format : Format) (name : String) (seqId : Int32)
    (h : (Utf8.encode name).length ≤ Endpoint.maxSize) (hname : (Utf8.encode name).length ≤ 16777216) :
    (call format name seqId).Admitted { transport := .header } := by
  have hbody : (Value.struct []).Legible format { text := 16777216 } := by
    refine ⟨trivial, Value.throughout_of_parts ⟨?_, trivial⟩ rfl⟩
    cases format <;> trivial
  exact ⟨⟨(nofun : MessageKind.call ≠ .exception), trivial⟩, h, .inr hname, hbody⟩

def Turn.bare (header : MessageHeader) : List Turn :=
  [.write (.write (.messageBegin header)), .write (.write .structBegin), .write (.write .fieldStop),
    .write (.write .structEnd), .write (.write .messageEnd)]

def Turn.flush : Turn := .write (.write .flush)

def threeParcels : List Parcel :=
  [⟨{ encoding := .compact, seqId := 7 }, [.call (.compact .bigEndian) "ping" 1, .call (.compact .bigEndian) "pong" 2]⟩,
    ⟨{ seqId := 8 }, []⟩, ⟨{ seqId := 9 }, [.call .binary "stop" 3]⟩]

def answerAndCall : List Turn :=
  [.readHead, .readBody] ++ Turn.bare ⟨"ping", .reply, 1⟩ ++ [.flush, .readHead, .readBody] ++
    Turn.bare ⟨"poll", .call, 5⟩ ++ [.flush]

theorem Session.reads_and_answers_as_told_after_call : ∃ session,
    ofStream? { transport := .header } { unread := threeParcels.flatMap Parcel.octets } = .ok session ∧
    (Turn.runAll answerAndCall session).transport.head?.map EnvelopeHead.heading = some ⟨.compact, 5⟩ ∧
    (∃ after, (Turn.runAll answerAndCall session).Receives (Enclosed.call .binary "stop" 3).message .binary after) ∧
    (Turn.runAll (answerAndCall ++ .readHead :: .readBody :: Turn.bare ⟨"stop", .reply, 3⟩) session).SendsUnder
      ⟨.binary, 9⟩ := by
  obtain ⟨session, hopen, hsession⟩ : ∃ session,
      ofStream? { transport := .header } { unread := threeParcels.flatMap Parcel.octets } = .ok session ∧
      session = ⟨{ transport := .header }, .binary { limits := { text := 16777216 } },
        { transport := .ofStream .header { unread := threeParcels.flatMap Parcel.octets } 16777216 }⟩ :=
    ⟨_, rfl, rfl⟩
  have hadmitted : ∀ parcel ∈ threeParcels, parcel.Admitted { transport := .header } := by
    have hcomes {parcel : Parcel} (hfits : parcel.head.encodeBlock.length / 4 ≤ EnvelopeHead.maxWords)
        (hsize : EnvelopeHead.fixedSize + parcel.head.encodeBlock.length + parcel.payload.length ≤ 16777216) :
        (Wrapping.envelope parcel.head).Comes parcel.payload .header 16777216 := ⟨hfits, hsize⟩
    simp only [threeParcels, List.forall_mem_cons]
    refine ⟨⟨hcomes (by decide +kernel) (by decide +kernel), ?_, ?_⟩,
      ⟨hcomes (by decide +kernel) (by decide +kernel), nofun, nofun⟩,
      ⟨hcomes (by decide +kernel) (by decide +kernel), ?_, ?_⟩, nofun⟩
    · simp only [List.forall_mem_cons]
      exact ⟨Enclosed.admitted_call _ _ _ (by decide) (by decide), Enclosed.admitted_call _ _ _ (by decide) (by decide),
        nofun⟩
    · simp only [List.forall_mem_cons]
      exact ⟨rfl, rfl, nofun⟩
    · simp only [List.forall_mem_cons]
      exact ⟨Enclosed.admitted_call _ _ _ (by decide) (by decide), nofun⟩
    · simp only [List.forall_mem_cons]
      exact ⟨rfl, nofun⟩
  obtain ⟨asked, hbefore, hunder, hnone, hcurrent, hnamed, course, hcourse, hheading⟩ : ∃ asked : Course,
      (Course.opened session.endpoint.codec threeParcels).goes { transport := .header } answerAndCall = some asked ∧
      asked.under = none ∧ asked.current = [] ∧ asked.ahead.current = [.call .binary "stop" 3] ∧
      asked.ahead.named = ⟨.binary, 9⟩ ∧ ∃ course : Course,
        asked.goes { transport := .header } (.readHead :: .readBody :: Turn.bare ⟨"stop", .reply, 3⟩) = some course ∧
        course.heading.encoding = .binary := by
    rw [hsession]
    exact ⟨_, rfl, rfl, rfl, rfl, rfl, _, rfl, rfl⟩
  obtain ⟨-, hfirst, -, hreads, hthen⟩ :=
    reads_and_answers_as_told rfl hopen rfl hadmitted hbefore hunder hcurrent
  obtain ⟨-, hsends, -, hnumber⟩ := hthen _ course hcourse
  refine ⟨session, hopen, ?_, hreads fun hleft => absurd hnone hleft, ?_⟩
  · rw [hsession]
    decide +kernel
  · have hseqId : course.heading.seqId = 9 := by
      rw [hnumber, hfirst hnone, hnamed]
      simp [Turn.bare, Turn.Renumbers, MessageKind.isRequest]
    have hlast : course.heading = ⟨.binary, 9⟩ := by
      rw [← hheading, ← hseqId]
    rw [← hlast]
    exact hsends

def twoCalls : Stream :=
  { unread := Parcel.octets ⟨{ seqId := 7 }, [.call .binary "ping" 1, .call .binary "pong" 2]⟩ }

/-- A call that is written between the two, in another encoding, makes the second one unreadable; and the answer to the
first one goes out under the number of the call. -/
theorem Session.call_between_misleads : ∃ session, ofStream? { transport := .header } twoCalls = .ok session ∧
    readMessageBegin.run' (Turn.runAll [.readHead, .readBody] session) = some ⟨"pong", .call, 2⟩ ∧
    readMessageBegin.run' (Turn.runAll ([.readHead, .readBody, .write (.switchTo .compact)] ++
      Turn.bare ⟨"poll", .call, 5⟩) session) = none ∧
    (Turn.runAll ([.readHead, .readBody] ++ Turn.bare ⟨"ping", .reply, 1⟩ ++ [.flush]) session).stream.written =
      Enveloped.encode { seqId := 7 } (Format.binary.message ⟨"ping", .reply, 1⟩ ++ [0]) ∧
    (Turn.runAll ([.readHead, .readBody] ++ Turn.bare ⟨"poll", .call, 5⟩ ++ [.flush] ++
      Turn.bare ⟨"ping", .reply, 1⟩ ++ [.flush]) session).stream.written =
      Enveloped.encode { seqId := 5 } (Format.binary.message ⟨"poll", .call, 5⟩ ++ [0]) ++
        Enveloped.encode { seqId := 5 } (Format.binary.message ⟨"ping", .reply, 1⟩ ++ [0]) := by
  obtain ⟨session, hopen, hsession⟩ : ∃ session, ofStream? { transport := .header } twoCalls = .ok session ∧
      session = ⟨{ transport := .header }, .binary { limits := { text := 16777216 } },
        { transport := .ofStream .header twoCalls 16777216 }⟩ := ⟨_, rfl, rfl⟩
  refine ⟨session, hopen, ?_, ?_, ?_, ?_⟩ <;> rw [hsession]
  · decide +kernel
  · decide +kernel
  · decide +kernel
  · decide +kernel

end RpcWire
