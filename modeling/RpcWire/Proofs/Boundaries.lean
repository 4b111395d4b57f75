import RpcWire.Proofs.Pieces

/-! The head of a message is a boundary: what is read from it on depends on the input and the settings alone, and on
nothing that was read or written before. -/
namespace RpcWire

/-! ## Failures of a channel -/

/-- Failures other than a fault that a message carries. -/
def WireError.Plain (err : WireError) : Prop := ∀ fault, err ≠ .fault fault

namespace Stream

private theorem fails_read (n : Nat) : Fails WireError.Plain (read n) := by
  intro stream err after h
  unfold read at h
  split at h
  · cases h
    rintro _ ⟨⟩
  · cases h

private theorem fails_readFull (n : Nat) : Fails WireError.Plain (readFull n) := by
  intro stream
  fun_induction readFull n stream with
  | case2 n stream hn err after hread =>
    rintro _ _ ⟨⟩
    exact fails_read n hread
  | case4 n stream hn first more mid hread err after hrest ih =>
    rintro _ _ ⟨⟩
    exact ih hrest
  | _ => rintro _ _ ⟨⟩

private theorem fails_readLength : Fails WireError.Plain readLength :=
  (fails_readFull 4).bind fun _ => .ite (.pure _) (.ite (.throw (by rintro _ ⟨⟩)) (.pure _))

end Stream

namespace Framed

private theorem fails_await : Fails WireError.Plain await := by
  intro layer
  fun_induction await layer with
  | case2 layer hdone err stream hread =>
    rintro _ _ ⟨⟩
    exact Stream.fails_readLength hread
  | case4 layer hdone length stream hread hlarge =>
    rintro _ _ ⟨⟩
    rintro _ ⟨⟩
  | case5 layer hdone length stream hread hfit ih => exact fun _ _ h => ih h
  | _ => rintro _ _ ⟨⟩

private theorem fails_read (n : Nat) : Fails WireError.Plain (read n) := by
  refine .ite (.pure _) (fails_await.bind fun more => .ite (.pure _) (.get fun layer => ?_))
  refine (Fails.onPart (Stream.fails_read _)).bind fun bytes => .ite (.throw (by rintro _ ⟨⟩)) ?_
  exact (Fails.modify _).bind fun _ => .pure bytes

end Framed

namespace Enveloped

private theorem fails_load (length : UInt32) : Fails WireError.Plain (load length) := by
  intro layer err after h
  unfold load at h
  split at h
  · cases h
    rintro _ ⟨⟩
  split at h
  · cases h
    rintro _ ⟨⟩
  split at h
  · next hread =>
    cases h
    exact Stream.fails_readFull _ hread
  split at h
  · cases h
    rintro _ ⟨⟩
  split at h
  · cases h
    rintro _ ⟨⟩
  · cases h

private theorem fails_await : Fails WireError.Plain await := by
  intro layer
  fun_induction await layer with
  | case2 layer hdone err stream hread =>
    rintro _ _ ⟨⟩
    exact Stream.fails_readLength hread
  | case4 layer hdone length stream hread err entered hload =>
    rintro _ _ ⟨⟩
    exact fails_load length hload
  | case5 layer hdone length stream hread entered hload ih => exact fun _ _ h => ih h
  | _ => rintro _ _ ⟨⟩

private theorem fails_read (n : Nat) : Fails WireError.Plain (read n) := by
  refine .ite (.pure _) (fails_await.bind fun more => .ite (.pure _) (.get fun layer => ?_))
  exact (Fails.modify _).bind fun _ => .pure _

end Enveloped

theorem Transport.fails_dispatch {α : Type} {p : WireError → Prop} {raw : StreamM α} {framed : FramedM α}
    {header : EnvelopedM α} (hraw : Fails p raw) (hframed : Fails p framed) (hheader : Fails p header) :
    Fails p (dispatch raw framed header) := by
  intro transport err after h
  cases transport with
  | raw stream =>
    rw [dispatch] at h
    exact Fails.onPart hraw h
  | framed layer =>
    rw [dispatch] at h
    exact Fails.onPart hframed h
  | header layer =>
    rw [dispatch] at h
    exact Fails.onPart hheader h

private theorem Transport.fails_read (n : Nat) : Fails WireError.Plain (read n) :=
  fails_dispatch (Stream.fails_read n) (Framed.fails_read n) (Enveloped.fails_read n)

namespace Channel

private theorem fails_fill (n : Nat) : Fails WireError.Plain (fill n) := by
  intro channel
  fun_induction fill n channel with
  | case2 channel hle err after hread =>
    rintro _ _ ⟨⟩
    exact Transport.fails_read _ hread
  | case3 channel hle after hread =>
    rintro _ _ ⟨⟩
    rintro _ ⟨⟩
  | case4 channel hle first more after hread ih => exact fun _ _ h => ih h
  | _ => rintro _ _ ⟨⟩

/-- A channel does not make up faults. -/
theorem fails_peek (n : Nat) : Fails WireError.Plain (peek n) :=
  (fails_fill n).bind fun _ => .get fun _ => .pure _

theorem fails_read (n : Nat) : Fails WireError.Plain (read n) :=
  (fails_fill n).bind fun _ => .get fun _ => (Fails.modify _).bind fun _ => .pure _

/-! ## The same input -/

/-- Channels with the same input. What is written and not flushed may differ; so may what was captured, as far as
`kept` allows. -/
structure SameInput (kept : Option Bytes → Option Bytes → Prop) (channel channel' : Channel) : Prop where
  transport : channel.transport = channel'.transport
  readAhead : channel.readAhead = channel'.readAhead
  captured : kept channel.captured channel'.captured

/-- Reading ahead looks at the input alone. -/
theorem commutes_fill (n : Nat) (pending : Bytes) (captured : Option Bytes) :
    Commutes (fun channel => { channel with pending, captured }) (fill n) := by
  intro channel
  fun_induction fill n channel with
  | case1 channel hle =>
    rw [fill]
    exact if_pos hle
  | case2 channel hle err after hread =>
    rw [fill]
    simp only [if_neg hle, hread]
  | case3 channel hle after hread =>
    rw [fill]
    simp only [if_neg hle, hread]
  | case4 channel hle first more after hread ih =>
    rw [← ih, fill]
    simp only [if_neg hle, hread]

variable {kept : Option Bytes → Option Bytes → Prop} {stop : WireError → Prop}

theorem tracks_fill (n : Nat) :
    Tracks (SameInput kept) (SameInput kept) (SameInput kept) stop (fill n) (fill n) := by
  intro channel channel' h
  have hsame : { channel with pending := channel'.pending, captured := channel'.captured } = channel' := by
    rw [h.transport, h.readAhead]
  have hfill' := commutes_fill n channel'.pending channel'.captured channel
  dsimp only at hfill'
  rw [hsame] at hfill'
  obtain ⟨transport, readAhead, hfill⟩ := fill_ahead n channel
  rcases hfill with ⟨hfill, -⟩ | ⟨err, hfill, -⟩
  · rw [hfill', hfill]
    exact .ok ⟨rfl, rfl, h.captured⟩
  · rw [hfill', hfill]
    exact .error ⟨rfl, rfl, h.captured⟩

private theorem tracks_peek (n : Nat) :
    Tracks (SameInput kept) (SameInput kept) (SameInput kept) stop (peek n) (peek n) := by
  refine (tracks_fill n).bind fun _ => Tracks.get fun channel channel' h => ?_
  rw [h.readAhead]
  exact .pure _

private theorem tracks_read (n : Nat) (hkept : ∀ {captured captured'} (bytes : Bytes), kept captured captured' →
      kept (captured.map (· ++ bytes)) (captured'.map (· ++ bytes))) :
    Tracks (SameInput kept) (SameInput kept) (SameInput kept) stop (read n) (read n) := by
  refine (tracks_fill n).bind fun _ channel channel' h => ?_
  simp only [bind, EStateM.bind, get_ok, set_ok, h.readAhead]
  exact .ok ⟨h.transport, rfl, hkept _ h.captured⟩

end Channel

def Pairing.ofInput (kept : Option Bytes → Option Bytes → Prop)
    (hkept : ∀ {captured captured'} (bytes : Bytes), kept captured captured' →
      kept (captured.map (· ++ bytes)) (captured'.map (· ++ bytes))) : Pairing where
  near _ := Channel.SameInput kept
  stop _ := False
  widen _ h := h
  kind h := congrArg Transport.kind h.transport
  head? h := congrArg Transport.head? h.transport
  available h := .inl (by rw [Channel.available, Channel.available, h.transport, h.readAhead])
  peek _ n := (Channel.tracks_peek n).mono (fun _ _ h => h) (fun _ _ h => h) (fun _ _ h => ⟨0, h⟩) fun _ h => h
  read _ n _ := (Channel.tracks_read n hkept).mono (fun _ _ h => h) (fun _ _ h => h) (fun _ _ h => ⟨0, h⟩) fun _ h => h

/-- What was captured at some time does not matter. -/
def Pairing.input : Pairing := .ofInput (fun _ _ => True) fun _ _ => trivial

/-- While a capture runs, it has to be the same. -/
def Pairing.capturedInput : Pairing := .ofInput (· = ·) fun _ h => by rw [h]

private theorem Pairing.captures_input : input.Captures capturedInput where
  start := fun ⟨n, h⟩ => ⟨n, Channel.SameInput.mk h.transport h.readAhead rfl⟩
  capture := fun ⟨_, h⟩ => congrArg (Option.getD · []) h.captured
  finish := fun ⟨n, h⟩ => ⟨n, Channel.SameInput.mk h.transport h.readAhead trivial⟩
  stop := fun _ h => h

/-! ## The codec of a message -/

def Codec.Suited (config : SessionConfig) (codec codec' : Codec) : Prop := codec.Suits config ∧ codec'.Suits config

def Codec.Agreed (config : SessionConfig) (codec codec' : Codec) : Prop :=
  codec.Suited config codec' ∧ codec.encoding = codec'.encoding

inductive Codec.Twin : Codec → Codec → Prop where
  | same (codec : Codec) : Twin codec codec
  | versions (codec : Compact) (version : CompactVersion) : Twin (.compact codec) (.compact { codec with version })

def Codec.Twins (config : SessionConfig) (codec codec' : Codec) : Prop := codec.Suits config ∧ codec.Twin codec'

/-- Of two codecs with the same settings and encoding, nothing but the version outlives the message under way. -/
theorem Codec.twin_reset {config : SessionConfig} {codec codec' : Codec} (h : codec.Suits config)
    (h' : codec'.Suits config) (hencoding : codec.encoding = codec'.encoding) : Twin codec.reset codec'.reset := by
  cases codec with
  | binary codec =>
    cases codec' with
    | binary codec' =>
      obtain rfl : codec = codec' := Eq.trans h (Eq.symm h')
      exact .same _
    | compact codec' => cases hencoding
  | compact codec =>
    cases codec' with
    | binary codec' => cases hencoding
    | compact codec' =>
      have hreset : codec'.reset = { codec.reset with version := codec'.version } := by
        simp only [Compact.reset, Eq.trans h (Eq.symm h')]
      rw [reset, reset, hreset]
      exact .versions codec.reset codec'.version

structure Endpoint.OnSameInput {κ : Type} (related : κ → κ → Prop) (endpoint endpoint' : Endpoint κ) : Prop where
  codec : related endpoint.codec endpoint'.codec
  input : endpoint.channel.SameInput (fun _ _ => True) endpoint'.channel

namespace Endpoint.OnSameInput
variable {κ : Type} {related : κ → κ → Prop} {failed : Endpoint κ → Endpoint κ → Prop}

private theorem tracks_onChannel {α : Type} {act : ChannelM α} (hfails : Fails WireError.Plain act)
    (h : Tracks (Channel.SameInput fun _ _ => True) (Channel.SameInput fun _ _ => True)
      (Channel.SameInput fun _ _ => True) (fun _ => False) act act) :
    Tracks (OnSameInput related) (OnSameInput related) failed WireError.Plain (onChannel act : CodecM κ α)
      (onChannel act) :=
  (Tracks.onPart h (fun _ _ hs => hs.input) (fun _ _ _ _ hs hm => ⟨hs.codec, hm⟩)
    fun _ _ _ _ hs hm => (⟨hs.codec, hm⟩ : OnSameInput related _ _)).stopping (Fails.onPart hfails)

private theorem tracks_readByte :
    Tracks (OnSameInput related) (OnSameInput related) failed WireError.Plain (readByte : CodecM κ UInt8) readByte :=
  tracks_onChannel ((Channel.fails_read 1).bind fun _ => .pure _)
    ((Channel.tracks_read 1 fun _ _ => trivial).bind fun _ => .pure _)

end Endpoint.OnSameInput

/-- Where reading ends alike, one codec is at work on both sides. -/
theorem Compact.tracks_messageBegin {limits : Limits} :
    Tracks (Endpoint.OnSameInput fun codec codec' => Limited limits codec ∧ ∃ version, codec' = { codec with version })
      (Endpoint.Beside (Limited limits) Pairing.input.Near) (Endpoint.Beside (Limited limits) Pairing.input.Near)
      WireError.Plain readMessageBegin readMessageBegin := by
  refine Endpoint.OnSameInput.tracks_readByte.bind fun first => .ite (fun _ => .stop_throw (by rintro _ ⟨⟩)) fun _ => ?_
  refine Endpoint.OnSameInput.tracks_readByte.bind fun second => ?_
  split
  · exact .stop_throw (by rintro _ ⟨⟩)
  · next version hversion =>
    have hset : Tracks (Endpoint.OnSameInput fun codec codec' =>
          Limited limits codec ∧ ∃ version, codec' = { codec with version })
        (Endpoint.Beside (Limited limits) (Pairing.input.near 0))
        (Endpoint.Beside (Limited limits) Pairing.input.Near)
        WireError.Plain (onCodec fun codec => { codec with version })
        (onCodec fun codec => { codec with version }) := by
      refine Tracks.modify fun endpoint endpoint' h => ?_
      obtain ⟨hlimits, old, hcodec⟩ := h.codec
      exact ⟨by rw [hcodec], hlimits, h.input⟩
    refine hset.bind fun _ => (follows_messageRest second).mono (fun _ _ h => h) ?_ (fun _ _ h => h) ?_
    · exact fun _ _ h => ⟨h.codec, h.known, 0, h.near⟩
    · exact fun _ h => h.elim

private theorem WireM.tracks_messageBegin {config : SessionConfig} :
    Tracks (Endpoint.OnSameInput (Codec.Twins config))
      (Endpoint.Beside (Codec.Suits config) Pairing.input.Near)
      (Endpoint.Beside (Codec.Suits config) Pairing.input.Near)
      WireError.Plain readMessageBegin readMessageBegin := by
  rintro ⟨codec, channel⟩ ⟨codec', channel'⟩ ⟨⟨hsuits, htwin⟩, hinput⟩
  cases htwin with
  | same codec =>
    have hboth : Endpoint.Beside (Codec.Suits config) (Pairing.input.near 0) ⟨codec, channel⟩ ⟨codec, channel'⟩ :=
      ⟨rfl, hsuits, hinput⟩
    refine (follows_messageBegin hboth).mono ?_ (fun _ _ h => h) ?_
    · exact fun _ _ h => ⟨h.codec, h.known, 0, h.near⟩
    · exact fun _ h => h.elim
  | versions codec version =>
    simp only [readMessageBegin, dispatch]
    refine Matches.onPart (Compact.tracks_messageBegin ⟨⟨hsuits, version, rfl⟩, hinput⟩) ?_ ?_
    · exact fun _ _ h => ⟨congrArg Codec.compact h.codec, h.known, h.near⟩
    · exact fun _ _ h => ⟨congrArg Codec.compact h.codec, h.known, h.near⟩

namespace Session

structure OnSameInput (config : SessionConfig) (related : Codec → Codec → Prop) (session session' : Session) :
    Prop where
  config_left : session.config = config
  config_right : session'.config = config
  endpoint : Endpoint.OnSameInput related session.endpoint session'.endpoint

variable {config : SessionConfig} {related : Codec → Codec → Prop} {failed : Session → Session → Prop}

private theorem tracks_peek (size : Nat) :
    Tracks (OnSameInput config related) (OnSameInput config related) failed WireError.Plain
      (onChannel (Channel.peek size)) (onChannel (Channel.peek size)) := by
  have hpeek := @Endpoint.OnSameInput.tracks_onChannel _ related (fun _ _ => False) _ _ (Channel.fails_peek size)
    (Channel.tracks_peek size)
  exact hpeek.onPart (fun _ _ hs => hs.endpoint) (fun _ _ _ _ hs hm => ⟨hs.config_left, hs.config_right, hm⟩)
    fun _ _ _ _ _ hm => hm.elim

/-- The codec that a session changes to has the settings, and speaks the encoding. -/
theorem switchTo_eq (encoding : Encoding) {session : Session} (hconfig : session.config = config)
    (hsuits : session.endpoint.codec.Suits config) :
    (∃ err, config.codec? encoding = .error err ∧ switchTo encoding session = .error err session) ∨
      ∃ fresh codec, config.codec? encoding = .ok fresh ∧ codec.Suits config ∧ codec.encoding = encoding ∧
        switchTo encoding session = .ok () { session with endpoint := { session.endpoint with codec } } := by
  by_cases hsame : session.encoding = encoding
  · obtain ⟨fresh, hfresh⟩ : ∃ fresh, config.codec? encoding = .ok fresh := by
      rw [← hsame, Session.encoding]
      cases session.endpoint.codec <;> exact ⟨_, rfl⟩
    refine .inr ⟨fresh, session.endpoint.codec, hfresh, hsuits, hsame, ?_⟩
    rw [switchTo, bind_of_ok (get_ok session), if_pos hsame]
    rfl
  · rw [switchTo, bind_of_ok (get_ok session), if_neg hsame, hconfig]
    cases hcodec : config.codec? encoding with
    | error err => exact .inl ⟨err, rfl, rfl⟩
    | ok fresh =>
      refine .inr ⟨fresh, fresh, rfl, SessionConfig.suits_codec? hcodec, ?_, by rw [← hconfig]; rfl⟩
      cases encoding <;> cases hcodec <;> rfl

private theorem tracks_switchTo (encoding : Encoding) :
    Tracks (OnSameInput config (Codec.Suited config))
      (OnSameInput config (Codec.Agreed config))
      failed WireError.Plain (switchTo encoding) (switchTo encoding) := by
  intro session session' hs
  obtain ⟨hsuits, hsuits'⟩ := hs.endpoint.codec
  rcases switchTo_eq encoding hs.config_left hsuits with
    ⟨err, hcodec, hswitch⟩ | ⟨fresh, codec, hfresh, hcodec, henc, hswitch⟩
  · rw [hswitch]
    refine .stopped ?_
    cases encoding <;> cases hcodec <;> rintro _ ⟨⟩
  · rcases switchTo_eq encoding hs.config_right hsuits' with ⟨err, hnone, -⟩ | ⟨-, codec', -, hcodec', henc', hswitch'⟩
    · rw [hfresh] at hnone
      cases hnone
    · rw [hswitch, hswitch']
      exact .ok ⟨hs.config_left, hs.config_right, ⟨⟨hcodec, hcodec'⟩, henc.trans henc'.symm⟩, hs.endpoint.input⟩

theorem plain_of_detect {first second : UInt8} {err : WireError} (h : detect first second = .error err) :
    err.Plain := by
  unfold detect at h
  split at h
  · split at h
    · cases h
      rintro _ ⟨⟩
    · cases h
  · cases h

private theorem tracks_negotiateRead :
    Tracks (OnSameInput config (Codec.Suited config))
      (OnSameInput config (Codec.Agreed config))
      failed WireError.Plain negotiateRead negotiateRead := by
  refine Tracks.get fun session session' hs => ?_
  rw [hs.config_left, hs.config_right]
  refine Tracks.get fun session session' hs => ?_
  rw [transport, transport, hs.endpoint.input.transport]
  split
  · refine (tracks_peek 1).bind fun _ => Tracks.get fun session session' hs => ?_
    rw [transport, transport, hs.endpoint.input.transport]
    split
    · exact tracks_switchTo _
    · exact tracks_switchTo _
  · refine .ite (fun _ => (tracks_peek 2).bind fun start => ?_) fun _ => tracks_switchTo _
    split
    · next err hdetect => exact .stop_throw (plain_of_detect hdetect)
    · exact tracks_switchTo _

private theorem tracks_resetCodec :
    Tracks (OnSameInput config (Codec.Agreed config))
      (OnSameInput config (Codec.Twins config)) failed WireError.Plain
      resetCodec resetCodec := by
  intro session session' hs
  obtain ⟨⟨hsuits, hsuits'⟩, hencoding⟩ := hs.endpoint.codec
  exact .ok
    ⟨hs.config_left, hs.config_right, ⟨hsuits.reset, Codec.twin_reset hsuits hsuits' hencoding⟩, hs.endpoint.input⟩

/-- Where the head of a message is read, or its fault, one codec is at work on both sides. -/
theorem tracks_readMessageBegin :
    Tracks (OnSameInput config (Codec.Suited config))
      (Beside Pairing.input config) (Beside Pairing.input config) WireError.Plain
      readMessageBegin readMessageBegin := by
  have hhead : Tracks (OnSameInput config (Codec.Twins config))
      (Beside Pairing.input config) (Beside Pairing.input config) WireError.Plain (onWire WireM.readMessageBegin)
      (onWire WireM.readMessageBegin) :=
    WireM.tracks_messageBegin.onPart (fun _ _ hs => hs.endpoint)
      (fun _ _ _ _ hs hm => ⟨hs.config_left, hs.config_right, hm⟩)
      fun _ _ _ _ hs hm => ⟨hs.config_left, hs.config_right, hm⟩
  refine tracks_negotiateRead.bind fun _ => tracks_resetCodec.bind fun _ => hhead.bind fun header => ?_
  have hrest : Alike Pairing.input config _ := alike_unlessFault header
  exact hrest.mono (fun _ _ h => h) (fun _ _ h => h) (fun _ _ h => h) fun _ h => h.elim

/-! ## Messages on their own -/

/-- The sessions that can come about with some settings, also with operations that fail. Whoever has one may do with
its transport as he likes. -/
inductive Reachable (config : SessionConfig) : Session → Prop where
  | opened {stream : Stream} {session : Session} (h : ofStream? config stream = .ok session) : Reachable config session
  | succeeded {session after : Session} {answer : Answer} (operation : Operation) (before : Reachable config session)
      (h : operation.run session = .ok answer after) : Reachable config after
  | failed {session after : Session} {err : WireError} (operation : Operation) (before : Reachable config session)
      (h : operation.run session = .error err after) : Reachable config after
  | reset {session after : Session} (before : Reachable config session) (h : Session.reset session = .ok () after) :
      Reachable config after
  | handled {session : Session} (f : Transport → Transport) (before : Reachable config session) :
      Reachable config (session.mapTransport f)

/-- No operation changes the settings, and codecs keep what they have of them. -/
theorem Reachable.configured {session : Session} (h : Reachable config session) : session.Configured config := by
  induction h with
  | opened h => exact .of_open h
  | succeeded operation before h ih =>
    exact ih.of_alike (alike_operation Transport.pieces.captures operation) (.inl ⟨_, h⟩)
  | failed operation before h ih =>
    exact ih.of_alike (alike_operation Transport.pieces.captures operation) (.inr ⟨_, h⟩)
  | reset before h ih =>
    rw [Session.reset, bind_of_ok (get_ok _), ih.config_eq] at h
    cases hcodec : config.codec? config.encoding with
    | error err =>
      rw [hcodec] at h
      cases h
    | ok codec =>
      rw [hcodec] at h
      cases h
      exact ⟨ih.config_eq, SessionConfig.suits_codec? hcodec⟩
  | handled f before ih => exact ⟨ih.config_eq, ih.suits⟩

/-- What is seen of a reader's operation: what it gives, and then the input that is left and the codec at work. -/
structure Outlook where
  result : Except WireError Answer
  readAhead : Bytes
  transport : Transport
  encoding : Encoding
  version : Option CompactVersion

def Outlook.of (result : Except WireError Answer) (session : Session) : Outlook :=
  ⟨result, session.endpoint.channel.readAhead, session.transport, session.encoding,
    session.endpoint.codec.compactVersion?⟩

def outlooks (readings : List Reading) : Session → List Outlook :=
  trace Outlook.of (readings.map Reading.run)

theorem Beside.outlook {session session' : Session} (h : Beside Pairing.input config session session')
    (result : Except WireError Answer) : Outlook.of result session = Outlook.of result session' := by
  obtain ⟨n, hn⟩ := h.endpoint.near
  rw [Outlook.of, Outlook.of, h.encoding, h.version, hn.readAhead, transport, transport, hn.transport]

theorem Beside.outlooks {session session' : Session} (h : Beside Pairing.input config session session')
    (readings : List Reading) : outlooks readings session = outlooks readings session' := by
  have hacts : ∀ act ∈ readings.map Reading.run, Alike Pairing.input config act := by
    intro act hact
    obtain ⟨reading, -, rfl⟩ := List.mem_map.mp hact
    exact alike_reading Pairing.captures_input reading
  exact trace_eq hacts (fun _ h => h) (fun result _ _ h => h.outlook result) h

theorem outlooks_messageBegin (readings : List Reading) (session : Session) :
    outlooks (.messageBegin :: readings) session = match readMessageBegin session with
      | .ok header after => .of (.ok (.message header)) after :: outlooks readings after
      | .error err after => .of (.error err) after :: outlooks readings after := by
  rw [outlooks, List.map_cons, trace, Reading.run]
  cases hbegin : readMessageBegin session with
  | ok header after =>
    rw [bind_of_ok hbegin]
    rfl
  | error err after =>
    rw [bind_of_error hbegin]
    rfl

/-- From the head of a message on, nothing tells what a session did before. -/
theorem outlooks_eq_of_messageBegin {session session' : Session} (hreach : Reachable config session)
    (hreach' : Reachable config session') (htransport : session.transport = session'.transport)
    (hahead : session.endpoint.channel.readAhead = session'.endpoint.channel.readAhead)
    (hbegin : (∃ header after, readMessageBegin session = .ok header after) ∨
      ∃ fault after, readMessageBegin session = .error (.fault fault) after) (readings : List Reading) :
    outlooks (.messageBegin :: readings) session = outlooks (.messageBegin :: readings) session' := by
  obtain ⟨hconfig, hsuits⟩ := hreach.configured
  obtain ⟨hconfig', hsuits'⟩ := hreach'.configured
  have hbegun := tracks_readMessageBegin ⟨hconfig, hconfig', ⟨hsuits, hsuits'⟩, htransport, hahead, trivial⟩
  rw [outlooks_messageBegin, outlooks_messageBegin]
  rcases hbegin with ⟨header, after, hbegin⟩ | ⟨fault, after, hbegin⟩
  · rw [hbegin] at hbegun ⊢
    generalize readMessageBegin session' = result at hbegun ⊢
    cases hbegun with
    | ok hafter => exact congrArg₂ List.cons (hafter.outlook _) (hafter.outlooks readings)
  · rw [hbegin] at hbegun ⊢
    rcases hbegun.of_error with hplain | ⟨after', hbegin', hafter⟩
    · exact absurd rfl (hplain fault)
    · rw [hbegin']
      exact congrArg₂ List.cons (hafter.outlook _) (hafter.outlooks readings)

/-- A compact message is read the same by a fresh session and by one that left a struct and the head of a truth value
unfinished. -/
theorem outlooks_eq_of_unfinished : ∃ session session' : Session,
    Reachable { transport := .raw } session ∧ Reachable { transport := .raw } session' ∧
    session.transport = session'.transport ∧
    session.endpoint.channel.readAhead = session'.endpoint.channel.readAhead ∧
    session.encoding = .binary ∧ session'.endpoint.codec =
      .compact { limits := { text := 16777216 }, outerFields := [0], pendingWrite := some 5 } ∧
    (∃ header after, readMessageBegin session = .ok header after) ∧
    outlooks [.messageBegin, .structBegin, .fieldBegin, .bool, .fieldBegin, .structEnd] session =
      outlooks [.messageBegin, .structBegin, .fieldBegin, .bool, .fieldBegin, .structEnd] session' := by
  obtain ⟨session, hopen, hbegin⟩ : ∃ session, ofStream? { transport := .raw }
      { unread := [0x82, 0x22, 7, 1, 97, 0x11, 0] } = .ok session ∧ (readMessageBegin.run' session).isSome :=
    ⟨_, rfl, by decide +kernel⟩
  have hsession : Reachable { transport := .raw } session := .opened hopen
  have hbegun : ∃ header after, readMessageBegin session = .ok header after := by
    delta EStateM.run' EStateM.run at hbegin
    cases hrun : readMessageBegin session with
    | ok header after => exact ⟨header, after, rfl⟩
    | error err after =>
      rw [hrun] at hbegin
      cases hbegin
  cases hopen
  have hunfinished : Reachable { transport := .raw } _ :=
    .succeeded (.write (.fieldBegin ⟨.bool, 5⟩)) (.succeeded (.read .structBegin)
      (.succeeded (.switchTo .compact) hsession rfl) rfl) rfl
  exact ⟨_, _, hsession, hunfinished, rfl, rfl, rfl, rfl, hbegun,
    outlooks_eq_of_messageBegin hsession hunfinished rfl rfl (.inl hbegun) _⟩

end Session
end RpcWire
