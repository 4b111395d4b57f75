import RpcWire.Proofs.Tracking.Values
import RpcWire.Search.Service

/-! Sessions side by side: with the same settings and the same codec, on channels that deliver alike, they do the same
and choose the same codec for the next message. -/
namespace RpcWire

/-- Every codec that the settings give has them. -/
theorem SessionConfig.suits_codec? {config : SessionConfig} {encoding : Encoding} {codec : Codec}
    (h : config.codec? encoding = .ok codec) : codec.Suits config := by
  cases encoding <;> cases h <;> rfl

theorem Codec.Suits.reset {config : SessionConfig} {codec : Codec} (h : codec.Suits config) :
    codec.reset.Suits config := by
  cases codec with
  | binary codec => exact h
  | compact codec => exact h

namespace Session

structure Beside (pairing : Pairing) (config : SessionConfig) (session session' : Session) : Prop where
  config_left : session.config = config
  config_right : session'.config = config
  endpoint : Endpoint.Beside (Codec.Suits config) pairing.Near session.endpoint session'.endpoint

namespace Beside
variable {pairing : Pairing} {config : SessionConfig} {session session' : Session}

theorem encoding (h : Beside pairing config session session') : session.encoding = session'.encoding :=
  congrArg Codec.encoding h.endpoint.codec

theorem version (h : Beside pairing config session session') :
    session.endpoint.codec.compactVersion? = session'.endpoint.codec.compactVersion? :=
  congrArg Codec.compactVersion? h.endpoint.codec

theorem kind (h : Beside pairing config session session') : session.transport.kind = session'.transport.kind :=
  let ⟨_, hn⟩ := h.endpoint.near
  pairing.kind hn

theorem head? (h : Beside pairing config session session') : session.transport.head? = session'.transport.head? :=
  let ⟨_, hn⟩ := h.endpoint.near
  pairing.head? hn

end Beside

def Alike {α : Type} (pairing : Pairing) (config : SessionConfig) (act : SessionM α) : Prop :=
  Tracks (Beside pairing config) (Beside pairing config) (Beside pairing config) pairing.stop act act

namespace Alike
variable {α β : Type} {pairing : Pairing} {config : SessionConfig} {act : SessionM α}

theorem pure (value : α) : Alike pairing config (pure value) := Tracks.pure value

theorem throw (err : WireError) : Alike pairing config (throw err : SessionM α) := Tracks.throw err fun _ _ h => h

theorem bind {next : α → SessionM β} (h : Alike pairing config act)
    (hnext : ∀ value, Alike pairing config (next value)) : Alike pairing config (act >>= next) :=
  Tracks.bind h hnext

theorem seq {act : SessionM Unit} {next : SessionM β} (h : Alike pairing config act)
    (hnext : Alike pairing config next) : Alike pairing config (do act; next) :=
  h.bind fun _ => hnext

theorem map (f : α → β) (h : Alike pairing config act) : Alike pairing config (do return f (← act)) :=
  h.bind fun value => .pure (f value)

theorem ite {cond : Prop} [Decidable cond] {other : SessionM α} (h : Alike pairing config act)
    (hother : Alike pairing config other) : Alike pairing config (if cond then act else other) :=
  Tracks.ite (fun _ => h) fun _ => hother

/-- What a codec does on either channel, its sessions do. -/
theorem onWire {act : WireM α} (h : ∀ n, Follows pairing (Codec.Suits config) n n act act) :
    Alike pairing config (onWire act) := by
  intro session session' hs
  obtain ⟨n, hn⟩ := hs.endpoint.near
  refine Matches.onPart (h n ⟨hs.endpoint.codec, hs.endpoint.known, hn⟩) ?_ ?_
  · exact fun _ _ hm => ⟨hs.config_left, hs.config_right, hm.codec, hm.known, n, hm.near⟩
  · exact fun _ _ hm => ⟨hs.config_left, hs.config_right, hm⟩

end Alike

variable {pairing during : Pairing} {twoWay : TwoWay} {config : SessionConfig}

/-! ## Reading -/

private theorem alike_setCodec {codec : Codec} (h : codec.Suits config) :
    Alike pairing config (setCodec codec) :=
  Tracks.modify fun _ _ hs => ⟨hs.config_left, hs.config_right, rfl, h, hs.endpoint.near⟩

theorem alike_switchTo (encoding : Encoding) : Alike pairing config (switchTo encoding) := by
  refine Tracks.get fun session session' hs => ?_
  rw [hs.encoding, hs.config_left, hs.config_right]
  refine Alike.ite (.pure ()) ?_
  cases hcodec : config.codec? encoding with
  | error err => exact .throw err
  | ok codec => exact alike_setCodec (SessionConfig.suits_codec? hcodec)

private theorem alike_peek (size : Nat) : Alike pairing config (onChannel (Channel.peek size)) :=
  .onWire fun n => .onChannel (pairing.peek n size)

theorem alike_negotiateRead : Alike pairing config negotiateRead := by
  refine Tracks.get fun session session' hs => ?_
  rw [hs.config_left, hs.config_right]
  refine Tracks.get fun session session' hs => ?_
  rw [hs.kind]
  split
  · refine (alike_peek 1).bind fun _ => Tracks.get fun session session' hs => ?_
    rw [hs.head?]
    split
    · exact alike_switchTo _
    · exact alike_switchTo _
  · refine .ite (fun _ => (alike_peek 2).bind fun start => ?_) fun _ => alike_switchTo _
    split
    · exact .throw _
    · exact alike_switchTo _

theorem alike_resetCodec : Alike pairing config resetCodec := by
  intro session session' hs
  refine .ok ⟨hs.config_left, hs.config_right, ?_, hs.endpoint.known.reset, hs.endpoint.near⟩
  exact congrArg Codec.reset hs.endpoint.codec

/-- With the nesting that the settings allow. -/
theorem alike_nested {α : Type} {act : Nat → SessionM α} (h : ∀ depth, Alike pairing config (act depth)) :
    Alike pairing config (get >>= fun session => act session.config.recursionLimit) := by
  refine Tracks.get fun session session' hs => ?_
  rw [hs.config_left, hs.config_right]
  exact h _

/-- A head is given, or the fault that it announces is read. -/
theorem alike_unlessFault (header : MessageHeader) : Alike pairing config (if header.kind = .exception then do
      throw (.fault (← onWire (Fault.read (← get).config.recursionLimit)))
      return header
    else return header) := by
  refine .ite ?_ (.pure header)
  exact alike_nested fun depth => (Alike.onWire fun _ => Fault.follows_read depth).bind fun fault =>
    (Alike.throw (.fault fault)).bind fun _ => .pure header

/-- Once the codec of a message is chosen, its head is read alike. -/
theorem alike_negotiated : Alike pairing config (do
    resetCodec
    let header ← onWire WireM.readMessageBegin
    if header.kind = .exception then
      throw (.fault (← onWire (Fault.read (← get).config.recursionLimit)))
    return header) :=
  alike_resetCodec.seq ((Alike.onWire fun _ => WireM.follows_messageBegin.plain).bind alike_unlessFault)

theorem alike_readMessageBegin : Alike pairing config readMessageBegin :=
  alike_negotiateRead.seq alike_negotiated

theorem alike_skip (tag : Tag) : Alike pairing config (skip tag) :=
  alike_nested fun depth => .onWire fun _ => WireM.follows_skip depth tag

/-- The octets of a value are the same too. -/
theorem alike_readRaw (h : pairing.Captures during) (tag : Tag) : Alike pairing config (readRaw tag) := by
  intro session session' hs
  have hskip := @alike_skip during config tag (session.mapChannel Channel.startCapture)
    (session'.mapChannel Channel.startCapture)
    ⟨hs.config_left, hs.config_right, hs.endpoint.codec, hs.endpoint.known, h.start hs.endpoint.near⟩
  rw [readRaw, readRaw]
  generalize skip tag (session.mapChannel Channel.startCapture) = result at hskip
  generalize skip tag (session'.mapChannel Channel.startCapture) = result' at hskip
  cases hskip with
  | ok hm =>
    simp only [h.capture hm.endpoint.near]
    exact .ok ⟨hm.config_left, hm.config_right, hm.endpoint.codec, hm.endpoint.known, h.finish hm.endpoint.near⟩
  | error hm =>
    exact .error ⟨hm.config_left, hm.config_right, hm.endpoint.codec, hm.endpoint.known, h.finish hm.endpoint.near⟩
  | stopped hstop => exact .stopped (h.stop _ hstop)

/-- A value is read alike where nothing stops the first run early, or where less is left for it than the number says. -/
theorem alike_value (h : (∀ err, ¬pairing.stop err) ∨ pairing.Sized) (tag : Tag) :
    Alike pairing config (onWire (Value.read tag)) := by
  intro session session' hs
  obtain ⟨n, hn⟩ := hs.endpoint.near
  have hvalue : ∃ m, Matches (Endpoint.Beside (Codec.Suits config) (pairing.near m))
      (Endpoint.Beside (Codec.Suits config) pairing.Near) pairing.stop (Value.read tag session.endpoint)
      (Value.read tag session'.endpoint) := by
    rcases h with hstop | ⟨hnone, hsized⟩
    · have hsame : session.endpoint.channel.available = session'.endpoint.channel.available :=
        (pairing.available hn).resolve_right fun hearly => hstop _ hearly.1
      exact ⟨n, Value.follows_readWithin (.inl (congrArg (· + 1) hsame)) tag
        ⟨hs.endpoint.codec, hs.endpoint.known, hn⟩⟩
    · have hle : session.endpoint.channel.available ≤ session'.endpoint.channel.available :=
        (pairing.available hn).elim Nat.le_of_eq And.right
      exact ⟨_, Value.follows_readWithin (.inr ⟨Nat.succ_le_succ hle, .inr ⟨hnone, Nat.le_refl _⟩⟩) tag
        ⟨hs.endpoint.codec, hs.endpoint.known, hsized hn⟩⟩
  obtain ⟨m, hm⟩ := hvalue
  refine hm.onPart ?_ ?_
  · exact fun _ _ hm => ⟨hs.config_left, hs.config_right, hm.codec, hm.known, m, hm.near⟩
  · exact fun _ _ hm => ⟨hs.config_left, hs.config_right, hm⟩

/-! ## Writing -/

private theorem alike_mapHead (f : EnvelopeHead → EnvelopeHead) :
    Alike twoWay.toPairing config (modify (mapTransport (Transport.mapHead f))) :=
  Tracks.modify fun _ _ hs =>
    let ⟨n, hn⟩ := hs.endpoint.near
    ⟨hs.config_left, hs.config_right, hs.endpoint.codec, hs.endpoint.known, n, twoWay.mapHead f hn⟩

theorem alike_writeMessageBegin (header : MessageHeader) :
    Alike twoWay.toPairing config (writeMessageBegin header) := by
  refine alike_resetCodec.seq (Tracks.get fun session session' hs => ?_)
  rw [hs.encoding]
  exact (alike_mapHead _).seq (.onWire fun _ => WireM.follows_writeMessageBegin header)

theorem alike_flush : Alike twoWay.toPairing config flush :=
  .onWire fun _ => WireM.follows_flush

private theorem alike_writeReply (request : MessageHeader) {body : WireM Unit}
    (h : ∀ n, Follows twoWay.toPairing (Codec.Suits config) n n body body) :
    Alike twoWay.toPairing config (writeReply request body) :=
  (alike_writeMessageBegin _).seq ((Alike.onWire h).seq alike_flush)

private theorem alike_rejectUnknownMethod (request : MessageHeader) :
    Alike twoWay.toPairing config (rejectUnknownMethod request) := by
  refine (alike_skip .struct).seq (.ite (.pure ()) ?_)
  exact (alike_writeMessageBegin _).seq ((Alike.onWire fun _ => Fault.follows_write _).seq alike_flush)

end Session

/-- A request is answered alike. -/
theorem Search.alike_process {twoWay : TwoWay} {config : SessionConfig} (corpus : List String) :
    Session.Alike twoWay.toPairing config (process corpus) := by
  refine Session.alike_readMessageBegin.bind fun request => ?_
  split
  · exact .throw _
  · refine .ite (Session.alike_rejectUnknownMethod request) ?_
    refine Session.alike_nested fun depth =>
      (Session.Alike.onWire fun _ => Request.follows_read depth).bind fun args => ?_
    exact .ite (.pure ()) (Session.alike_writeReply request fun _ => Response.follows_write _)

end RpcWire
