import RpcWire.Proofs.Lasting
import RpcWire.Proofs.Layout.Limits
import RpcWire.Proofs.Refusing

/-! What is written after a reset. A session that is reset while a message is read or written, in whatever encoding and
with whatever was said in its envelopes, writes what a new session writes whose user says of himself the same. What the
last envelope named as its encoding is not forgotten, but every message names its own. -/
namespace RpcWire.Session
variable {config : SessionConfig} {session session' : Session}

/-! ## Writing sees nothing of what was read -/

def facing (f : Stream → Stream) (session : Session) : Session :=
  { session with endpoint := session.endpoint.facing f }

private theorem stream_facing (f : Stream → Stream) (session : Session) :
    (session.facing f).stream = f session.stream := by
  obtain ⟨config, codec, transport, readAhead, pending, captured⟩ := session
  cases transport <;> rfl

/-- Apart from its stream, writing sees the same of a session whatever the stream is changed to. -/
theorem facing_eq (f : Stream → Stream) (session : Session) :
    session.facing f = (session.facing fun _ => {}).onto (f session.stream) := by
  obtain ⟨config, codec, transport, readAhead, pending, captured⟩ := session
  cases transport <;> rfl

private theorem facing_facing (f g : Stream → Stream) (session : Session) :
    (session.facing f).facing g = session.facing fun stream => g (f stream) := by
  obtain ⟨config, codec, transport, readAhead, pending, captured⟩ := session
  cases transport <;> rfl

inductive Doing where
  | tell (setting : Enveloped.Setting)
  | switchTo (encoding : Encoding)
  | write (writing : Writing)

def Doing.run : Doing → SessionM Unit
  | .tell setting => modify (Session.tell setting)
  | .switchTo encoding => Session.switchTo encoding
  | .write writing => writing.run

section
variable {f : Stream → Stream}

private theorem commutes_onWire {α : Type} {act : WireM α} (h : Commutes (Endpoint.facing f) act) :
    Commutes (facing f) (onWire act) :=
  h.onPart (fun _ => rfl) fun _ _ => rfl

private theorem commutes_tell (setting : Enveloped.Setting) :
    Commutes (facing f) (modify (tell setting) : SessionM Unit) := by
  rintro ⟨config, codec, transport, readAhead, pending, captured⟩
  cases transport <;> cases setting <;> rfl

private theorem commutes_switchTo (encoding : Encoding) : Commutes (facing f) (switchTo encoding) := by
  intro session
  have hsame : (session.facing f).encoding = session.encoding := rfl
  rw [switchTo, bind_of_ok (get_ok session), bind_of_ok (get_ok (session.facing f)), hsame]
  by_cases hencoding : session.encoding = encoding
  · rw [if_pos hencoding, if_pos hencoding]
    rfl
  · rw [if_neg hencoding, if_neg hencoding]
    cases hcodec : session.config.codec? encoding with
    | error err =>
      have hcodec' : (session.facing f).config.codec? encoding = .error err := hcodec
      rw [hcodec']
      rfl
    | ok codec =>
      have hcodec' : (session.facing f).config.codec? encoding = .ok codec := hcodec
      rw [hcodec']
      rfl

/-- The head of a message is written by the codec, once codec and envelope are set for it. -/
theorem writeMessageBegin_eq (header : MessageHeader) (session : Session) :
    writeMessageBegin header session = onWire (WireM.writeMessageBegin header) (session.addressed header) := by
  rw [addressed, encoding, ← Codec.encoding_reset]
  rfl

private theorem commutes_writeMessageBegin (header : MessageHeader) :
    Commutes (facing f) (writeMessageBegin header) := by
  intro session
  have haddressed : (session.facing f).addressed header = (session.addressed header).facing f := by
    obtain ⟨config, codec, transport, readAhead, pending, captured⟩ := session
    cases transport <;> rfl
  rw [writeMessageBegin_eq, writeMessageBegin_eq, haddressed]
  exact commutes_onWire ((WireM.gathers_messageBegin header).commutes_facing f) (session.addressed header)

/-- The part is octets for the next flush, which are gathered without a look at limits. -/
def Writing.Gathered (writing : Writing) : Prop :=
  ∃ act : WireM Unit, Gathers act ∧ act.KeepsKind ∧ writing.run = onWire act

/-- A part of a message is its head, or octets gathered for the next flush, or the flush. -/
theorem Writing.run_cases (writing : Writing) :
    (∃ header, writing = .messageBegin header) ∨ writing = .flush ∨ writing.Gathered := by
  have heither {binary : Binary.M Unit} {compact : Compact.M Unit} (hbinary : Gathers binary)
      (hcompact : Gathers compact) (hkeeps : ∀ p : Binary → Prop, Maintains (Endpoint.OfCodec p) binary)
      (hkeeps' : ∀ limits, Maintains (Endpoint.OfCodec (·.limits = limits)) compact)
      (hrun : writing.run = onWire (WireM.dispatch binary compact)) :
      (∃ header, writing = .messageBegin header) ∨ writing = .flush ∨ writing.Gathered :=
    .inr (.inr ⟨_, WireM.gathers_dispatch hbinary hcompact, WireM.keepsKind_dispatch hkeeps hkeeps', hrun⟩)
  have hoctets (bytes bytes' : Bytes)
      (hrun : writing.run = onWire (WireM.dispatch (Endpoint.write bytes) (Endpoint.write bytes'))) :=
    heither (Endpoint.gathers_bytes bytes) (Endpoint.gathers_bytes bytes') (fun _ => Endpoint.maintains_bytes bytes)
      (fun _ => Endpoint.maintains_bytes bytes') hrun
  have hrun (bytes : Bytes) (hrun : writing.run = onWire (WireM.writeBytes bytes)) :=
    heither (Binary.gathers_run bytes) (Compact.gathers_run bytes) (fun _ => Binary.maintains_run bytes)
      (fun _ => Compact.maintains_run bytes) hrun
  have hlist (header : ListHeader) (hrun : writing.run = onWire (WireM.writeListBegin header)) :=
    heither (Binary.gathers_listBegin header) (Compact.gathers_listBegin header)
      (fun _ => Binary.maintains_listBegin header) (fun _ => Compact.maintains_listBegin header) hrun
  cases writing with
  | messageBegin header => exact .inl ⟨header, rfl⟩
  | flush => exact .inr (.inl rfl)
  | structBegin =>
    exact heither (.pure ()) (Compact.gathers_onCodec _) (fun _ => .pure ())
      (fun _ => Compact.maintains_structBegin) rfl
  | structEnd =>
    exact heither (.pure ()) Compact.gathers_structEnd (fun _ => .pure ()) (fun _ => Compact.maintains_structEnd) rfl
  | fieldBegin header =>
    exact heither (Binary.gathers_fieldBegin header) (Compact.gathers_fieldBegin header)
      (fun _ => Binary.maintains_fieldBegin header) (fun _ => Compact.maintains_fieldBegin header) rfl
  | mapBegin header =>
    exact heither (Binary.gathers_mapBegin header) (Compact.gathers_mapBegin header)
      (fun _ => Binary.maintains_mapBegin header) (fun _ => Compact.maintains_mapBegin header) rfl
  | listBegin header => exact hlist header rfl
  | setBegin header => exact hlist header rfl
  | bool value =>
    exact heither (Endpoint.gathers_byte _) (Compact.gathers_bool value) (fun _ => Endpoint.maintains_byte _)
      (fun _ => Compact.maintains_bool value) rfl
  | double bits =>
    exact heither (Endpoint.gathers_bytes _) (Compact.gathers_double bits) (fun _ => Endpoint.maintains_bytes _)
      (fun _ => Compact.maintains_double bits) rfl
  | text content => exact hrun (Utf8.encode content) rfl
  | bytes content => exact hrun content rfl
  | fieldStop | byte value | i16 value | i32 value | i64 value | float bits => exact hoctets _ _ rfl
  | messageEnd | fieldEnd | mapEnd | listEnd | setEnd =>
    exact .inr (.inr ⟨pure (), .pure (), WireM.keepsKind_pure, rfl⟩)

variable (hf : ∀ bytes, Commutes f (Stream.write bytes))
include hf

private theorem commutes_writing (writing : Writing) : Commutes (facing f) writing.run := by
  rcases writing.run_cases with ⟨header, rfl⟩ | rfl | ⟨act, hgathers, -, hrun⟩
  · exact commutes_writeMessageBegin header
  · exact commutes_onWire (WireM.commutes_flush_facing hf)
  · rw [hrun]
    exact commutes_onWire (hgathers.commutes_facing f)

private theorem commutes_doing (doing : Doing) : Commutes (facing f) doing.run := by
  cases doing with
  | tell setting => exact commutes_tell setting
  | switchTo encoding => exact commutes_switchTo encoding
  | write writing => exact commutes_writing hf writing

end

/-- What comes of an act: the failure, if it fails, and the octets that the stream gets. -/
def Doing.yield (doing : Doing) (session : Session) : Option WireError × Bytes :=
  (shown doing.run session).map id (List.drop session.stream.written.length)

def yields : List Doing → Session → List (Option WireError × Bytes)
  | [], _ => []
  | doing :: rest, session => doing.yield session :: yields rest (stateOf (doing.run session))

/-- What was read before makes no difference to what comes of writing, nor what was written. -/
theorem yields_facing (before : Bytes) (doings : List Doing) (session : Session) :
    yields doings (session.facing (Stream.outwardAfter before)) = yields doings session := by
  have hwritten (session : Session) :
      (session.facing (Stream.outwardAfter before)).stream.written = before ++ session.stream.written :=
    congrArg Stream.written (stream_facing _ session)
  have hdrop (session after : Session) :
      (before ++ after.stream.written).drop (before ++ session.stream.written).length =
        after.stream.written.drop session.stream.written.length := by
    rw [List.length_append, ← List.drop_drop, List.drop_left]
  induction doings generalizing session with
  | nil => rfl
  | cons doing rest ih =>
    have hrun := commutes_doing (Stream.commutes_write_outwardAfter before) doing session
    have hyield : doing.yield (session.facing (Stream.outwardAfter before)) = doing.yield session := by
      simp only [Doing.yield, shown, hrun, hwritten]
      cases doing.run session with
      | ok value after => simp only [hwritten, Prod.map, hdrop]
      | error err after => simp only [hwritten, Prod.map, hdrop]
    have hafter : stateOf (doing.run (session.facing (Stream.outwardAfter before))) =
        (stateOf (doing.run session)).facing (Stream.outwardAfter before) := by
      rw [hrun]
      cases doing.run session <;> rfl
    rw [yields, yields, hyield, hafter, ih]

/-- All that counts of a stream is how much it takes. -/
theorem yields_bare (doings : List Doing) (session : Session) :
    yields doings (session.facing fun stream => { limit := stream.limit }) = yields doings session := by
  have hsame : (session.facing fun stream => { limit := stream.limit }).facing
      (Stream.outwardAfter session.stream.written) = session.facing (Stream.outwardAfter []) := by
    rw [facing_facing, facing_eq, facing_eq (Stream.outwardAfter []), Stream.outwardAfter, Stream.outwardAfter,
      List.append_nil, List.nil_append]
  rw [← yields_facing session.stream.written, hsame, yields_facing]

/-! ## What every message sets anew -/

def FromHead : List Doing → Prop
  | [] => True
  | .tell _ :: rest => FromHead rest
  | .switchTo _ :: rest => FromHead rest
  | .write (.messageBegin _) :: _ => True
  | .write _ :: _ => False

private theorem stream_settled (session : Session) : session.settled.stream = session.stream := by
  obtain ⟨config, codec, transport, readAhead, pending, captured⟩ := session
  cases transport <;> rfl

private theorem settled_settled (session : Session) : session.settled.settled = session.settled := by
  obtain ⟨config, codec, transport, readAhead, pending, captured⟩ := session
  cases codec <;> cases transport <;> rfl

/-- A change of the encoding depends on what later messages see. -/
theorem switchTo_settled (encoding : Encoding) (session : Session) :
    shown (switchTo encoding) session.settled = shown (switchTo encoding) session ∧
      (stateOf (switchTo encoding session.settled)).settled = (stateOf (switchTo encoding session)).settled := by
  have hsame : session.settled.encoding = session.encoding := by
    obtain ⟨config, codec, transport, readAhead, pending, captured⟩ := session
    cases codec <;> rfl
  have hwritten (codec : Codec) (session : Session) :
      ({ session with endpoint := { session.endpoint with codec } } : Session).stream = session.stream := rfl
  rw [shown, shown, switchTo, bind_of_ok (get_ok session), bind_of_ok (get_ok session.settled), hsame]
  by_cases hencoding : session.encoding = encoding
  · rw [if_pos hencoding, if_pos hencoding]
    exact ⟨congrArg (fun stream => (none, Stream.written stream)) session.stream_settled, session.settled_settled⟩
  · rw [if_neg hencoding, if_neg hencoding]
    cases hcodec : session.config.codec? encoding with
    | error err =>
      have hcodec' : session.settled.config.codec? encoding = .error err := hcodec
      rw [hcodec']
      exact ⟨congrArg (fun stream => (some err, Stream.written stream)) session.stream_settled, session.settled_settled⟩
    | ok codec =>
      have hcodec' : session.settled.config.codec? encoding = .ok codec := hcodec
      rw [hcodec']
      refine ⟨congrArg (fun stream => (none, Stream.written stream)) session.stream_settled, ?_⟩
      obtain ⟨config, old, transport, readAhead, pending, captured⟩ := session
      cases transport <;> rfl

/-- From sessions that look the same to later messages, the same comes of writing them. -/
theorem yields_congr (h : session.settled = session'.settled) {doings : List Doing} (hhead : FromHead doings) :
    yields doings session = yields doings session' := by
  have hstream {session session' : Session} (h : session.settled = session'.settled) :
      session.stream = session'.stream := by
    rw [← stream_settled, h, stream_settled]
  induction doings generalizing session session' with
  | nil => rfl
  | cons doing rest ih =>
    cases doing with
    | tell setting =>
      have htold (session : Session) : (session.tell setting).stream = session.stream := by
        obtain ⟨config, codec, transport, readAhead, pending, captured⟩ := session
        cases transport <;> rfl
      have hyield (session : Session) : (Doing.tell setting).yield session =
          (none, session.stream.written.drop session.stream.written.length) :=
        congrArg (fun stream => (none, (Stream.written stream).drop session.stream.written.length)) (htold session)
      have hsettled : (session.tell setting).settled = (session'.tell setting).settled := by
        rw [settled_tell, h, ← settled_tell]
      rw [yields, yields, hyield, hyield, hstream h]
      exact congrArg _ (ih hsettled hhead)
    | switchTo encoding =>
      obtain ⟨hshown, hafter⟩ := switchTo_settled encoding session
      obtain ⟨hshown', hafter'⟩ := switchTo_settled encoding session'
      rw [h] at hshown hafter
      rw [yields, yields, Doing.yield, Doing.yield, Doing.run, ← hshown, hshown', hstream h]
      exact congrArg _ (ih (hafter.symm.trans hafter') hhead)
    | write writing =>
      cases writing with
      | messageBegin header =>
        have hrun : writeMessageBegin header session = writeMessageBegin header session' := by
          rw [writeMessageBegin_eq, writeMessageBegin_eq, ← addressed_settled, h, addressed_settled]
        rw [yields, yields, Doing.yield, Doing.yield, Doing.run, Writing.run, shown, shown, hrun, hstream h]
      | _ => exact hhead.elim

/-! ## A reset session beside a new one -/

/-- What a user says in a new session to be known as in this one: who he is, and his lasting headers. -/
def introductions (session : Session) : List Enveloped.Setting :=
  match session.transport.head? with
  | none => []
  | some head => head.identity.toList.map .identity ++
      head.outgoingLasting.entries.map fun entry => .lasting entry.1 entry.2

def tellAll (settings : List Enveloped.Setting) (session : Session) : Session :=
  settings.foldl (fun session setting => session.tell setting) session

private theorem tellAll_eq (settings : List Enveloped.Setting) (session : Session) :
    session.tellAll settings =
      session.mapTransport (Transport.mapHead fun head => settings.foldl Enveloped.Setting.apply head) := by
  induction settings generalizing session with
  | nil =>
    obtain ⟨config, codec, transport, readAhead, pending, captured⟩ := session
    cases transport <;> rfl
  | cons setting settings ih =>
    rw [tellAll, List.foldl_cons, ← tellAll, ih]
    obtain ⟨config, codec, transport, readAhead, pending, captured⟩ := session
    cases transport <;> rfl

/-- Who has not said anything yet is known by what he says. -/
theorem foldl_introductions (old : EnvelopeHead) :
    (old.identity.toList.map Enveloped.Setting.identity ++
      old.outgoingLasting.entries.map fun entry => Enveloped.Setting.lasting entry.1 entry.2).foldl
        Enveloped.Setting.apply {} =
      { identity := old.identity, outgoingLasting := old.outgoingLasting } := by
  have hlast (entries : List (String × String)) (head : EnvelopeHead) :
      (entries.map fun entry => Enveloped.Setting.lasting entry.1 entry.2).foldl Enveloped.Setting.apply head =
        { head with outgoingLasting := head.outgoingLasting.insertMany entries } := by
    induction entries generalizing head with
    | nil => rfl
    | cons entry entries ih =>
      rw [List.map_cons, List.foldl_cons, ih]
      rfl
  have hfirst : (old.identity.toList.map Enveloped.Setting.identity).foldl Enveloped.Setting.apply {} =
      { identity := old.identity } := by
    cases old.identity with
    | none => rfl
    | some name => rfl
  have hall : (∅ : Headers).insertMany old.outgoingLasting.entries = old.outgoingLasting :=
    old.outgoingLasting.ofList_entries
  rw [List.foldl_append, hfirst, hlast, hall]

def anew (config : SessionConfig) (codec : Codec) (introductions : List Enveloped.Setting) (stream : Stream) :
    Session :=
  tellAll introductions ⟨config, codec, { transport := .ofStream config.transport stream config.maxFrameSize }⟩

private theorem settled_onto (session : Session) (stream : Stream) :
    (session.onto stream).settled = session.settled.onto stream := by
  obtain ⟨config, codec, transport, readAhead, pending, captured⟩ := session
  cases transport <;> rfl

private theorem stream_anew (codec : Codec) (introductions : List Enveloped.Setting) (stream : Stream) :
    (anew config codec introductions stream).stream = stream := by
  have hmap (f : EnvelopeHead → EnvelopeHead) (transport : Transport) :
      (transport.mapHead f).stream = transport.stream := by
    cases transport <;> rfl
  rw [anew, tellAll_eq]
  refine (hmap (introductions.foldl Enveloped.Setting.apply) _).trans ?_
  exact Transport.stream_ofStream config.transport stream config.maxFrameSize

/-- Once it is reset, a session looks to later messages like a new one whose user introduces himself as in this one. -/
theorem settled_renewed (h : session.Lasting config) (codec : Codec) (stream : Stream) :
    ((session.renewed codec).facing fun _ => {}).settled =
      ((anew config codec session.introductions stream).facing fun _ => {}).settled := by
  rw [anew, tellAll_eq, h.ofStream_eq]
  obtain ⟨config', old, transport, readAhead, pending, captured⟩ := session
  obtain rfl : config' = config := h.configured.config_eq
  cases transport with
  | raw stream => rfl
  | framed layer => rfl
  | header layer =>
    simp only [mapTransport, mapChannel, Transport.kind, Transport.ofStream, Transport.mapHead, introductions,
      Session.transport, Transport.head?, foldl_introductions layer.head]
    rfl

/-- On streams that take as much, the same comes of writing in a session that is reset and in a new one. -/
theorem yields_renewed (h : session.Lasting config) (codec : Codec) {stream : Stream}
    (hlimit : stream.limit = session.stream.limit) {doings : List Doing} (hhead : FromHead doings) :
    yields doings (session.renewed codec) = yields doings (anew config codec session.introductions stream) := by
  have hstream : (session.renewed codec).stream = session.stream := by
    obtain ⟨config', old, transport, readAhead, pending, captured⟩ := session
    cases transport <;> rfl
  rw [← yields_bare, ← yields_bare _ (anew config codec session.introductions stream)]
  refine yields_congr ?_ hhead
  rw [facing_eq, facing_eq _ (anew config codec session.introductions stream), settled_onto, settled_onto,
    settled_renewed h codec stream, hstream, stream_anew, hlimit]

/-- Whatever was done with a session, it can be reset, and then the same comes of writing messages as in a new session
with its settings, on any stream that takes as much, once its user has said who he is and what his lasting headers are.
The same acts fail in the same way, and each brings the same octets to the stream. -/
theorem reset_writesAsNew (h : Used config session) : ∃ after, reset session = .ok () after ∧
    ∀ stream : Stream, stream.limit = session.stream.limit → ∃ fresh, ofStream? config stream = .ok fresh ∧
      ∀ doings, FromHead doings → yields doings after = yields doings (fresh.tellAll session.introductions) := by
  obtain ⟨codec, hcodec⟩ := h.exists_codec
  refine ⟨session.renewed codec, reset_eq h.lasting.configured.config_eq hcodec, fun stream hlimit => ?_⟩
  refine ⟨_, ?_, fun doings hhead => yields_renewed h.lasting codec hlimit hhead⟩
  rw [ofStream?, hcodec]
  rfl

/-- A request in an envelope with flags, of which the body is not read to its end. -/
def cutShort : Stream :=
  { unread := [0, 0, 0, 34, 15, 255, 0, 7, 0, 0, 0, 9, 0, 1, 0, 0, 0, 0, 0x80, 1, 0, 1, 0, 0, 0, 4, 112, 105, 110, 103,
      0, 0, 0, 9, 11, 0, 1, 0] }

def said : List Enveloped.Setting := [.identity "me", .lasting "n" "t", .once "k" "v"]

def ping : List Doing :=
  [.tell (.once "k" "w"), .write (.messageBegin ⟨"ping", .call, 2⟩), .write .structBegin, .write .fieldStop,
    .write .structEnd, .write .messageEnd, .write .flush]

def pingOctets : Bytes :=
  [0, 0, 0, 67, 15, 255, 0, 0, 0, 0, 0, 2, 0, 10, 0, 0, 1, 3, 1, 107, 1, 119, 8, 105, 100, 101, 110, 116, 105, 116,
    121, 2, 109, 101, 10, 105, 100, 95, 118, 101, 114, 115, 105, 111, 110, 1, 49, 2, 1, 1, 110, 1, 116, 0, 128, 1, 0,
    1, 0, 0, 0, 4, 112, 105, 110, 103, 0, 0, 0, 2, 0]

/-- A session is left amid a request it read, with flags, and amid a message that it wrote in another encoding. -/
theorem reset_writesAsNew_amid : ∃ session after fresh : Session, Used { transport := .header } session ∧
    session.endpoint.channel.readAhead = [11, 0, 1, 0] ∧
    session.endpoint.channel.pending = [130, 33, 1, 4, 112, 105, 110, 103] ∧
    session.transport.head?.map (fun head => (head.flags, head.seqId, head.encoding)) = some (7, 1, .compact) ∧
    reset session = .ok () after ∧ ofStream? { transport := .header } {} = .ok fresh ∧ FromHead ping ∧
    yields ping after = yields ping (fresh.tellAll session.introductions) ∧
    yields ping after = List.replicate 6 (none, []) ++ [(none, pingOctets)] := by
  obtain ⟨start, hopen, hstart⟩ : ∃ start, ofStream? { transport := .header } cutShort = .ok start ∧
      start = ⟨{ transport := .header }, .binary { limits := { text := 16777216 } },
        { transport := .header { stream := cutShort, maxSize := 16777216 } }⟩ := ⟨_, rfl, rfl⟩
  obtain ⟨session, hsession⟩ : ∃ session : Session, session =
      stateOf ((Operation.write (.messageBegin ⟨"ping", .call, 1⟩)).run (stateOf ((Operation.switchTo .compact).run
        ((stateOf ((Operation.read .messageBegin).run start)).tellAll said)))) := ⟨_, rfl⟩
  have hused : Used { transport := .header } session := by
    rw [hsession, tellAll_eq]
    refine .operated (.operated (.handled (.operated (.opened hopen) _) _ fun transport => ?_) _) _
    exact transport.layer_mapHead _
  obtain ⟨after, hreset, hnew⟩ := reset_writesAsNew hused
  have hlimit : session.stream.limit = none := by
    rw [hsession, hstart]
    decide +kernel
  obtain ⟨fresh, hfresh, hyields⟩ := hnew {} hlimit.symm
  have hsame := hyields ping trivial
  refine ⟨session, after, fresh, hused, ?_, ?_, ?_, hreset, hfresh, trivial, hsame, ?_⟩
  · rw [hsession, hstart]
    decide +kernel
  · rw [hsession, hstart]
    decide +kernel
  · rw [hsession, hstart]
    decide +kernel
  · rw [hsame, hsession, hstart, ← (Except.ok.inj hfresh :)]
    decide +kernel

end RpcWire.Session
