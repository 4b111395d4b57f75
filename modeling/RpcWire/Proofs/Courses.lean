import RpcWire.Proofs.Alternating

/-! The course of a session with envelopes whose user reads and writes in turns: which encoding and number are in force,
which codec is at work, and which messages are left to read in the envelope and behind it. A session goes where the
course tells, from turn to turn, as long as each message is read in the encoding that it has. -/
namespace RpcWire

/-- What is left to read of a message once its head is read. A fault is read with the head. -/
def Enclosed.body (enclosed : Enclosed) : Option (Format × List (Int16 × Value)) :=
  match enclosed.message with
  | .plain _ fields => some (enclosed.format, fields)
  | .fault _ _ _ => none

/-- Where a session stands: what is in force, what the last envelope entered has named, the codec at work, the body of a
message whose head is read, the messages left in the envelope, and the envelopes behind it. -/
structure Course where
  heading : Heading := {}
  named : Heading := {}
  codec : Codec
  under : Option (Format × List (Int16 × Value)) := none
  current : List Enclosed := []
  later : List Parcel

/-- One step of what is done with a session: the head of the next message is read, or the body under it, or something
is done to write. -/
inductive Turn where
  | readHead
  | readBody
  | write (doing : Session.Doing)

def Turn.run : Turn → SessionM Unit
  | .readHead => do let _ ← Session.readMessageBegin
  | .readBody => do let _ ← Session.onWire (Value.read .struct)
  | .write doing => doing.run

def Session.Begins (session : Session) (message : Message) (after : Session) : Prop :=
  match message with
  | .plain header _ => readMessageBegin session = .ok header after
  | .fault _ _ answer => readMessageBegin session = .error (.fault answer) after

private theorem Session.Begins.stateOf_eq {session after : Session} {message : Message}
    (h : session.Begins message after) :
    stateOf (Turn.readHead.run session) = after := by
  cases message with
  | plain header fields => rw [Turn.run, bind_of_ok h]; rfl
  | fault name seqId answer => rw [Turn.run, bind_of_error h]; rfl

/-- The session after one turn after the other, whether or not those before succeeded. -/
def Turn.runAll (turns : List Turn) (session : Session) : Session :=
  turns.foldl (fun session turn => stateOf (turn.run session)) session

namespace Course

/-- On to the next message, into as many of these envelopes as there is nothing left of the one before. -/
def past : List Parcel → Course → Course
  | [], course => course
  | parcel :: later, course =>
    match course.current with
    | [] => past later { course with
        heading := parcel.head.told, named := parcel.head.told, current := parcel.contents, later }
    | _ :: _ => course

def ahead (course : Course) : Course := course.past course.later

def begun (config : SessionConfig) (enclosed : Enclosed) (others : List Enclosed) (course : Course) : Course :=
  { course.ahead with
    codec := course.codec.prepared config enclosed.format, under := enclosed.body, current := others }

/-- Where a turn leads. No more is told of a message that is read in another encoding than its own, or whose body is
read by a codec that does not fit it. -/
def next (config : SessionConfig) (course : Course) : Turn → Option Course
  | .readHead =>
    if course.under.isSome then none else
      match course.ahead.current with
      | [] => some course.ahead
      | enclosed :: rest =>
        if course.ahead.heading.encoding = enclosed.format.encoding then some (course.begun config enclosed rest)
        else none
  | .readBody =>
    match course.under with
    | none => none
    | some (format, _) =>
      if course.codec.format = format ∧ course.codec.Idle then some { course with under := none } else none
  | .write doing =>
    some { course with
      heading := doing.declares course.codec course.heading, codec := doing.recode config course.codec }

def goes (config : SessionConfig) : List Turn → Course → Option Course
  | [], course => some course
  | turn :: rest, course => (course.next config turn).bind (goes config rest)

end Course

namespace Course
variable {config : SessionConfig} {course course' : Course} {session : Session}

def rest (course : Course) : Bytes :=
  match course.under with
  | none => []
  | some (format, fields) => format.value (.struct fields)

/-- Whether a reader with these settings takes the envelopes and has room for the messages, and is told how the messages
are laid out that are left of the envelope it is in. -/
structure Admitted (config : SessionConfig) (course : Course) : Prop where
  limits : course.codec.limits = config.limits
  under : ∀ format fields, course.under = some (format, fields) → (Value.struct fields).Legible format config.limits
  current : ∀ enclosed ∈ course.current, enclosed.Admitted config ∧ enclosed.format.encoding = course.named.encoding
  later : ∀ parcel ∈ course.later, parcel.Admitted config

structure Followed (config : SessionConfig) (session : Session) (course : Course) : Prop where
  config_eq : session.config = config
  codec_eq : session.endpoint.codec = course.codec
  admitted : course.Admitted config
  amid : session.endpoint.channel.Amid config.maxFrameSize course.heading
    (course.rest ++ course.current.flatMap Enclosed.payload) (course.later.flatMap Parcel.octets)

theorem under_past (parcels : List Parcel) (course : Course) : (course.past parcels).under = course.under := by
  induction parcels generalizing course with
  | nil => rfl
  | cons parcel later ih =>
    rw [past]
    cases course.current with
    | nil => exact ih _
    | cons enclosed others => rfl

/-- Only where no envelope is left is there no message ahead. -/
theorem later_past {parcels : List Parcel} (hlater : course.later = parcels) (h : (course.past parcels).current = []) :
    (course.past parcels).later = [] := by
  induction parcels generalizing course with
  | nil => exact hlater
  | cons parcel later ih =>
    rw [past] at h ⊢
    cases hcurrent : course.current with
    | nil =>
      rw [hcurrent] at h
      exact ih rfl h
    | cons enclosed others =>
      rw [hcurrent] at h
      exact absurd (hcurrent.symm.trans h) (List.cons_ne_nil _ _)

theorem later_ahead (h : course.ahead.current = []) : course.ahead.later = [] := later_past rfl h

theorem rest_ahead (hunder : course.under = none) : course.ahead.rest = [] := by
  rw [rest, ahead, under_past, hunder]

theorem Followed.past {parcels : List Parcel} (h : course.Followed config session) (hlater : course.later = parcels)
    (hunder : course.under = none) : ∃ entered : Channel,
      (∀ n, 0 < n → Channel.fill n session.endpoint.channel = Channel.fill n entered) ∧
      (course.past parcels).Followed config (session.mapChannel fun _ => entered) := by
  have hrest : course.rest = [] := by rw [rest, hunder]
  induction parcels generalizing course session with
  | nil => exact ⟨session.endpoint.channel, fun _ _ => rfl, h⟩
  | cons parcel later ih =>
    rw [Course.past]
    cases hcurrent : course.current with
    | nil =>
      have hamid := h.amid
      rw [hrest, hcurrent, hlater, List.flatMap_cons] at hamid
      obtain ⟨hparcel, hothers⟩ := List.forall_mem_cons.mp (hlater ▸ h.admitted.later)
      obtain ⟨entered, hfill, hentered⟩ := hamid.enter hparcel.comes
      have hnext : Followed config (session.mapChannel fun _ => entered) { course with
          heading := parcel.head.told, named := parcel.head.told, current := parcel.contents, later } := by
        refine ⟨h.config_eq, h.codec_eq, ⟨h.admitted.limits, h.admitted.under, ?_, hothers⟩, ?_⟩
        · exact fun enclosed hmem => ⟨hparcel.contents enclosed hmem, hparcel.named enclosed hmem⟩
        · have hnone : Course.rest { course with
              heading := parcel.head.told, named := parcel.head.told, current := parcel.contents, later } = [] := hrest
          rw [hnone]
          exact hentered
      obtain ⟨last, hlast, hpast⟩ := ih hnext rfl hunder hrest
      exact ⟨last, fun n hn => (hfill n hn).trans (hlast n hn), hpast⟩
    | cons enclosed others => exact ⟨session.endpoint.channel, fun _ _ => rfl, h⟩

theorem Followed.ahead (h : course.Followed config session) (hunder : course.under = none) :
    ∃ entered : Channel, (∀ n, 0 < n → Channel.fill n session.endpoint.channel = Channel.fill n entered) ∧
      course.ahead.Followed config (session.mapChannel fun _ => entered) :=
  h.past rfl hunder

theorem Followed.kind (h : course.Followed config session) : session.transport.kind = .header := by
  obtain ⟨_, -, layer, hlayer, -⟩ := h.amid
  rw [Session.transport, hlayer]
  rfl

theorem Followed.head? (h : course.Followed config session) :
    ∃ head, session.transport.head? = some head ∧ head.heading = course.heading := by
  obtain ⟨_, -, layer, hlayer, hlayer'⟩ := h.amid
  exact ⟨layer.head, by rw [Session.transport, hlayer]; rfl, hlayer'.heading⟩

/-- The next message is read in the encoding in force, with its envelope entered. -/
theorem Followed.negotiates {enclosed : Enclosed} {others : List Enclosed} (h : course.Followed config session)
    (hunder : course.under = none) (hcurrent : course.ahead.current = enclosed :: others) : ∃ loaded : Channel,
      Session.negotiateRead session =
        Session.switchTo course.ahead.heading.encoding (session.mapChannel fun _ => loaded) ∧
      course.ahead.Followed config (session.mapChannel fun _ => loaded) := by
  obtain ⟨entered, hfill, hfollowed⟩ := h.ahead hunder
  have hlen : 1 ≤ (course.ahead.rest ++ course.ahead.current.flatMap Enclosed.payload).length := by
    have hpayload := List.length_pos_iff.mpr enclosed.payload_ne_nil
    rw [hcurrent, List.flatMap_cons, List.length_append, List.length_append]
    omega
  obtain ⟨loaded, hpeek, hholds⟩ := hfollowed.amid.holds.peek hlen
  have hloaded : course.ahead.Followed config (session.mapChannel fun _ => loaded) :=
    ⟨h.config_eq, hfollowed.codec_eq, hfollowed.admitted, hfollowed.amid.of_holds hholds⟩
  obtain ⟨head, hhead, hheading⟩ := hloaded.head?
  have hsame := (bind_eq_of_eq (hfill 1 Nat.one_pos)).trans hpeek
  refine ⟨loaded, ?_, hloaded⟩
  rw [← hheading]
  exact Session.negotiateRead_header h.kind (Session.onChannel_ok hsame) hhead

/-- What is read of the body under way ends it, if it takes all of it. -/
theorem Followed.ends_body {α : Type} {act : WireM α} {value : α} {format : Format} {fields : List (Int16 × Value)}
    (h : course.Followed config session) (hunder : course.under = some (format, fields))
    (hreads : Reads course.codec act (format.value (.struct fields)) value course.codec) : ∃ after : Session,
      Session.onWire act session = .ok value after ∧ { course with under := none }.Followed config after := by
  have hamid := h.amid
  rw [rest, hunder] at hamid
  rw [← h.codec_eq] at hreads
  obtain ⟨channel, hact, hchannel⟩ := hreads hamid.holds
  refine ⟨{ session with endpoint := ⟨session.endpoint.codec, channel⟩ }, onPart_ok hact, h.config_eq, h.codec_eq,
    ?_, ?_⟩
  · exact ⟨h.admitted.limits, nofun, h.admitted.current, h.admitted.later⟩
  · exact hamid.of_holds hchannel

/-- If the encoding in force is that of the message, its head is read, and the body comes next. -/
theorem Followed.reads_head {enclosed : Enclosed} {others : List Enclosed} (h : course.Followed config session)
    (hunder : course.under = none) (hcurrent : course.ahead.current = enclosed :: others)
    (hfits : course.ahead.heading.encoding = enclosed.format.encoding) : ∃ (after : Session) (fields : _),
      enclosed.message.body = .struct fields ∧
      (do Session.negotiateRead; Session.resetCodec; Session.onWire WireM.readMessageBegin) session =
        .ok enclosed.message.header after ∧
      { course.begun config enclosed others with under := some (enclosed.format, fields) }.Followed config after := by
  obtain ⟨fields, hfields⟩ : ∃ fields, enclosed.message.body = .struct fields := by
    cases enclosed.message <;> exact ⟨_, rfl⟩
  obtain ⟨loaded, hnegotiate, hloaded⟩ := h.negotiates hunder hcurrent
  have hcontents := hloaded.admitted.current
  rw [hcurrent] at hcontents
  obtain ⟨⟨⟨-, hsize, hname, hbody⟩, -⟩, hothers⟩ := List.forall_mem_cons.mp hcontents
  obtain ⟨codec, hcodec⟩ : ∃ codec, codec =
    (session.endpoint.codec.turned session.config enclosed.format.encoding).reset := ⟨_, rfl⟩
  have hturned : codec.encoding = enclosed.format.encoding := by
    rw [hcodec, Codec.encoding_reset, Codec.encoding_turned]
  have hlimits : codec.limits = config.limits := by
    rw [hcodec, Codec.limits_reset, h.config_eq, h.codec_eq, Codec.limits_turned h.admitted.limits]
  have hholds := hloaded.amid.holds
  rw [rest_ahead hunder, hcurrent, List.flatMap_cons, List.nil_append, Enclosed.payload, List.append_assoc] at hholds
  obtain ⟨channel, hact, hchannel⟩ := WireM.reads_learned hturned hsize (by rw [hlimits]; exact hname) hholds
  rw [hcodec] at hact
  rw [hfits, Session.switchTo_format] at hnegotiate
  rw [hfields] at hbody hchannel
  obtain ⟨-, -, hprepared⟩ := Codec.prepared_spec h.admitted.limits enclosed.format
  refine ⟨{ session with endpoint := ⟨session.endpoint.codec.prepared session.config enclosed.format, channel⟩ },
    fields, hfields, ?_, h.config_eq, by rw [begun, ← h.config_eq, ← h.codec_eq],
    ⟨hprepared, ?_, hothers, hloaded.admitted.later⟩, hloaded.amid.of_holds hchannel⟩
  · exact (bind_of_ok hnegotiate).trans ((bind_of_ok rfl).trans (onPart_ok hact))
  · rintro _ _ ⟨⟩
    exact hbody

theorem Followed.begins {enclosed : Enclosed} {others : List Enclosed} (h : course.Followed config session)
    (hunder : course.under = none) (hcurrent : course.ahead.current = enclosed :: others)
    (hfits : course.ahead.heading.encoding = enclosed.format.encoding) : ∃ after : Session,
      session.Begins enclosed.message after ∧ (course.begun config enclosed others).Followed config after := by
  obtain ⟨middle, fields, hfields, hhead, hmiddle⟩ := h.reads_head hunder hcurrent hfits
  obtain ⟨_, -, hfollowed⟩ := h.ahead hunder
  obtain ⟨⟨hwell, -, -, -⟩, -⟩ := hfollowed.admitted.current enclosed (by rw [hcurrent]; exact List.mem_cons_self)
  obtain ⟨hformat, hidle, hlimits⟩ := Codec.prepared_spec h.admitted.limits enclosed.format
  cases hmessage : enclosed.message with
  | plain header fields' =>
    rw [hmessage, Message.header] at hhead
    rw [hmessage] at hfields hwell
    have hbody : some (enclosed.format, fields) = enclosed.body := by
      rw [Enclosed.body, hmessage, Value.struct.inj hfields]
    rw [hbody] at hmiddle
    refine ⟨middle, ?_, hmiddle⟩
    rw [Session.Begins, Session.readMessageBegin_eq, bind_of_ok hhead, if_neg hwell.1]
    rfl
  | fault name seqId answer =>
    rw [hmessage, Message.header] at hhead
    rw [hmessage, Message.body] at hfields
    have hbody : none = enclosed.body := by rw [Enclosed.body, hmessage]
    have hlegible := hmiddle.admitted.under _ _ rfl
    rw [← hfields, ← hformat, ← hlimits] at hlegible
    have hreads := Fault.reads_read hidle hlegible middle.config.recursionLimit
    rw [hformat] at hreads
    obtain ⟨after, hread, hafter⟩ := hmiddle.ends_body rfl (hfields ▸ hreads)
    refine ⟨after, ?_, ?_⟩
    · rw [Session.Begins, Session.readMessageBegin_eq, bind_of_ok hhead, if_pos rfl]
      exact (bind_of_ok rfl).trans (bind_of_ok hread)
    · rw [hbody] at hafter
      exact hafter

/-- Where no message is left, none begins. -/
theorem Followed.ends (h : course.Followed config session) (hunder : course.under = none)
    (hcurrent : course.ahead.current = []) : ∃ err after,
      Session.readMessageBegin session = .error err after ∧ course.ahead.Followed config after := by
  obtain ⟨entered, hfill, hfollowed⟩ := h.ahead hunder
  have hamid := hfollowed.amid
  rw [rest_ahead hunder, hcurrent, later_ahead hcurrent] at hamid
  obtain ⟨err, hnothing⟩ := hamid.fill_nothing
  have hnegotiate := Session.negotiateRead_of_fill_error (.inl h.kind) fun n hn => (hfill n hn).trans (hnothing n hn)
  exact ⟨err, _, bind_of_error hnegotiate, hfollowed⟩

/-- The body under way is read by a codec that fits it. -/
theorem Followed.reads_body {format : Format} {fields : List (Int16 × Value)} (h : course.Followed config session)
    (hunder : course.under = some (format, fields)) (hformat : course.codec.format = format)
    (hidle : course.codec.Idle) : ∃ after : Session,
      Session.onWire (Value.read .struct) session = .ok (format.image (.struct fields)) after ∧
      { course with under := none }.Followed config after := by
  have hlegible := h.admitted.under format fields hunder
  rw [← hformat, ← h.admitted.limits] at hlegible
  have hreads := Value.reads_whole hidle hlegible
  rw [hformat] at hreads
  exact h.ends_body hunder hreads

theorem Followed.writes (h : course.Followed config session) (doing : Session.Doing) :
    Followed config (stateOf (doing.run session)) { course with
      heading := doing.declares course.codec course.heading, codec := doing.recode config course.codec } := by
  have hleaves := doing.leaves session
  have hlimited : session.Limited := by rw [Session.Limited, h.codec_eq, h.config_eq, h.admitted.limits]
  rw [h.config_eq, h.codec_eq] at hleaves
  have hconfig := hleaves.config.trans h.config_eq
  have hlimits := hleaves.limited hlimited
  rw [Session.Limited, hleaves.codec, hconfig] at hlimits
  exact ⟨hconfig, hleaves.codec, ⟨hlimits, h.admitted.under, h.admitted.current, h.admitted.later⟩, hleaves.amid h.amid⟩

theorem next_readHead (h : course.next config .readHead = some course') : course.under = none ∧
    ((course.ahead.current = [] ∧ course' = course.ahead) ∨
      ∃ enclosed others, course.ahead.current = enclosed :: others ∧
        course.ahead.heading.encoding = enclosed.format.encoding ∧ course' = course.begun config enclosed others) := by
  rw [next] at h
  split at h
  · cases h
  · next hunder =>
    rw [Bool.not_eq_true, Option.isSome_eq_false_iff, Option.isNone_iff_eq_none] at hunder
    refine ⟨hunder, ?_⟩
    split at h
    · next hcurrent => exact .inl ⟨hcurrent, (Option.some.inj h).symm⟩
    · next enclosed others hcurrent =>
      split at h
      · next hfits => exact .inr ⟨enclosed, others, hcurrent, hfits, (Option.some.inj h).symm⟩
      · cases h

theorem next_readBody (h : course.next config .readBody = some course') : ∃ format fields,
    course.under = some (format, fields) ∧ course.codec.format = format ∧ course.codec.Idle ∧
    course' = { course with under := none } := by
  rw [next] at h
  split at h
  · cases h
  · next format fields hunder =>
    split at h
    · next hready => exact ⟨format, fields, hunder, hready.1, hready.2, (Option.some.inj h).symm⟩
    · cases h

/-- A turn leads a session where it leads the course. -/
theorem Followed.next {turn : Turn} (h : course.Followed config session)
    (hnext : course.next config turn = some course') : course'.Followed config (stateOf (turn.run session)) := by
  cases turn with
  | readHead =>
    obtain ⟨hunder, ⟨hcurrent, rfl⟩ | ⟨enclosed, others, hcurrent, hfits, rfl⟩⟩ := next_readHead hnext
    · obtain ⟨err, after, hread, hafter⟩ := h.ends hunder hcurrent
      rw [Turn.run, bind_of_error hread]
      exact hafter
    · obtain ⟨after, hbegins, hafter⟩ := h.begins hunder hcurrent hfits
      rw [hbegins.stateOf_eq]
      exact hafter
  | readBody =>
    obtain ⟨format, fields, hunder, hformat, hidle, rfl⟩ := next_readBody hnext
    obtain ⟨after, hread, hafter⟩ := h.reads_body hunder hformat hidle
    rw [Turn.run, bind_of_ok hread]
    exact hafter
  | write doing =>
    obtain rfl := Option.some.inj hnext
    exact h.writes doing

theorem Followed.goes {turns : List Turn} (h : course.Followed config session)
    (hgoes : course.goes config turns = some course') : course'.Followed config (Turn.runAll turns session) := by
  induction turns generalizing course session with
  | nil =>
    obtain rfl := Option.some.inj hgoes
    exact h
  | cons turn rest ih =>
    obtain ⟨middle, hnext, hrest⟩ := Option.bind_eq_some_iff.mp hgoes
    exact ih (h.next hnext) hrest

theorem Followed.receives {enclosed : Enclosed} {others : List Enclosed} (h : course.Followed config session)
    (hunder : course.under = none) (hcurrent : course.ahead.current = enclosed :: others)
    (hfits : course.ahead.heading.encoding = enclosed.format.encoding) :
    ∃ after, session.Receives enclosed.message enclosed.format after := by
  obtain ⟨middle, hbegins, hmiddle⟩ := h.begins hunder hcurrent hfits
  obtain ⟨hformat, hidle, -⟩ := Codec.prepared_spec h.admitted.limits enclosed.format
  cases hmessage : enclosed.message with
  | plain header fields =>
    rw [hmessage] at hbegins
    have hbody : (course.begun config enclosed others).under = some (enclosed.format, fields) := by
      rw [begun, Enclosed.body, hmessage]
    obtain ⟨after, hread, -⟩ := hmiddle.reads_body hbody hformat hidle
    exact ⟨after, middle, hbegins, hread⟩
  | fault name seqId answer =>
    rw [hmessage] at hbegins
    exact ⟨middle, hbegins⟩

end Course

def Session.SendsUnder (session : Session) (heading : Heading) : Prop :=
  ∀ after, flush session = .ok () after → ∃ head, session.transport.head? = some head ∧ head.heading = heading ∧
    after.stream.written = session.stream.written ++ Enveloped.parting head session.endpoint.channel.unsent

namespace Course
variable {config : SessionConfig} {course course' : Course} {session : Session}

theorem Followed.sends (h : course.Followed config session) : session.SendsUnder course.heading := by
  intro after hflush
  obtain ⟨_, -, layer, hlayer, hlayer'⟩ := h.amid
  rw [Session.flush, Session.onWire] at hflush
  obtain ⟨endpoint, hwire, rfl⟩ := ok_of_onPart_ok hflush
  rw [WireM.flush, Endpoint.onChannel] at hwire
  obtain ⟨channel, hchannel, rfl⟩ := ok_of_onPart_ok hwire
  exact ⟨layer.head, by rw [Session.transport, hlayer]; rfl, hlayer'.heading, Channel.written_flush hlayer hchannel⟩

def opened (codec : Codec) (parcels : List Parcel) : Course := { codec, later := parcels }

theorem Followed.of_open {stream : Stream} {parcels : List Parcel} (htransport : config.transport = .header)
    (hopen : Session.ofStream? config stream = .ok session) (hunread : stream.unread = parcels.flatMap Parcel.octets)
    (hadmitted : ∀ parcel ∈ parcels, parcel.Admitted config) :
    (opened session.endpoint.codec parcels).Followed config session := by
  obtain ⟨codec, hcodec, rfl⟩ := Session.eq_of_open hopen
  have hlimits : codec.limits = config.limits := by
    cases hencoding : config.encoding <;> rw [hencoding] at hcodec <;> cases hcodec <;> rfl
  refine ⟨rfl, rfl, ⟨hlimits, nofun, nofun, hadmitted⟩, [], rfl, { stream, maxSize := config.maxFrameSize }, ?_, ?_⟩
  · rw [htransport]
    rfl
  · exact ⟨rfl, rfl, rfl, hunread⟩

end Course
end RpcWire
