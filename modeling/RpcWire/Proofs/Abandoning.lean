import RpcWire.Proofs.Lasting
import RpcWire.Proofs.Unread

/-! What a reset leaves of a message that is being read. Frames and envelopes under way are forgotten, but not the
octets read ahead of them: they are decoded before anything else. Where there are none, a session reads on like a new
one on the rest of its stream; the encoding that the last envelope named stays, but the next envelope names its own. -/
namespace RpcWire

/-! ## The encoding of the last envelope -/

namespace EnvelopeHead

def rename (encoding : Encoding) (head : EnvelopeHead) : EnvelopeHead := { head with encoding }

def lasting (head : EnvelopeHead) : EnvelopeHead :=
  { identity := head.identity, outgoingLasting := head.outgoingLasting, incomingLasting := head.incomingLasting }

abbrev Renamed (head head' : EnvelopeHead) : Prop := ∃ encoding, head' = rename encoding head

namespace Scan

def rename (encoding : Encoding) (scan : Scan) : Scan := { scan with head := scan.head.rename encoding }

abbrev Renamed (scan scan' : Scan) : Prop := ∃ encoding, scan' = rename encoding scan

private theorem commutes_byte (encoding : Encoding) : Commutes (rename encoding) byte := by
  rintro ⟨_ | ⟨first, rest⟩, head⟩
  · rfl
  · rfl

private theorem commutes_groups (encoding : Encoding) (most : Nat) :
    Commutes (rename encoding) (groups most) := by
  induction most with
  | zero => exact .throw _
  | succ most ih =>
    refine (commutes_byte encoding).bind fun first => ?_
    split
    · exact ih.bind fun rest => .pure _
    · exact .pure _

private theorem commutes_varint (encoding : Encoding) : Commutes (rename encoding) varint :=
  (commutes_groups encoding 5).bind fun _ => .pure _

/-- Once a block has named its encoding, the one named before makes no difference. -/
theorem tracks_block : Tracks Renamed Eq Renamed (fun _ => False) block block := by
  have hname (number : UInt32) : Tracks Renamed Eq Renamed (fun _ : FramingError => False)
      (modify fun scan => { scan with head := { scan.head with encoding := Encoding.ofWire number } } : ScanM PUnit)
      (modify fun scan => { scan with head := { scan.head with encoding := Encoding.ofWire number } }) := by
    refine Tracks.modify ?_
    rintro scan _ ⟨encoding, rfl⟩
    rfl
  exact (Commutes.tracks commutes_varint).bind fun number => (hname number).bind fun _ =>
    Tracks.same fun scan => ⟨scan.head.encoding, rfl⟩

end Scan

private theorem tracks_decodeBlock (bytes : Bytes) :
    Tracks Renamed Eq Renamed (fun _ => False) (decodeBlock bytes) (decodeBlock bytes) := by
  rintro head _ ⟨encoding, rfl⟩
  have hblock : Matches _ _ _ (Scan.block ⟨bytes, head⟩) (Scan.block ⟨bytes, head.rename encoding⟩) :=
    Scan.tracks_block ⟨encoding, rfl⟩
  simp only [decodeBlock]
  generalize Scan.block ⟨bytes, head⟩ = result at hblock ⊢
  generalize Scan.block ⟨bytes, head.rename encoding⟩ = result' at hblock ⊢
  cases hblock with
  | ok h =>
    cases h
    exact .ok rfl
  | error h =>
    obtain ⟨other, rfl⟩ := h
    exact .error ⟨other, rfl⟩
  | stopped h => exact h.elim

/-- The payload of an envelope is the same whatever encoding the one before has named, and so is what is known then. -/
theorem tracks_accept (frame : Bytes) :
    Tracks Renamed Eq Renamed (fun _ => False) (accept frame) (accept frame) := by
  have hmark (flags : UInt16) (seqId : UInt32) : Tracks Renamed Renamed Renamed (fun _ : FramingError => False)
      (modify fun head : EnvelopeHead => { head with flags, seqId } : EStateM FramingError EnvelopeHead PUnit)
      (modify fun head => { head with flags, seqId }) := by
    refine Tracks.modify ?_
    rintro head _ ⟨encoding, rfl⟩
    exact ⟨encoding, rfl⟩
  unfold accept
  refine .check (fun _ _ h => h) ((hmark _ _).bind fun _ => .check (fun _ _ h => h) ?_)
  exact (tracks_decodeBlock _).bind fun _ => .pure _

end EnvelopeHead

namespace Enveloped

def rename (encoding : Encoding) (layer : Enveloped) : Enveloped := { layer with head := layer.head.rename encoding }

/-- Between two envelopes, layers that are the same but for the encoding that the last one named. -/
structure Renamed (layer layer' : Enveloped) : Prop where
  between : layer.payload = []
  renamed : ∃ encoding, layer' = rename encoding layer

private theorem Renamed.refl {layer : Enveloped} (h : layer.payload = []) :
    layer.Renamed layer := ⟨h, layer.head.encoding, rfl⟩

private theorem tracks_load (length : UInt32) :
    Tracks Renamed Eq Renamed (fun _ => False) (load length) (load length) := by
  rintro ⟨stream, maxSize, head, payload, pending⟩ _ ⟨hbetween, encoding, rfl⟩
  have hfailed (stream : Stream) (other : Encoding) (head : EnvelopeHead) :
      Renamed ⟨stream, maxSize, head, payload, pending⟩ ⟨stream, maxSize, head.rename other, payload, pending⟩ :=
    ⟨hbetween, other, rfl⟩
  change Matches _ _ _ _ (load length ⟨stream, maxSize, head.rename encoding, payload, pending⟩)
  simp only [load]
  by_cases hlarge : maxSize < length
  · simp only [if_pos hlarge]
    exact .error (hfailed stream encoding head)
  by_cases hshort : length.toNat < EnvelopeHead.fixedSize
  · simp only [if_neg hlarge, if_pos hshort]
    exact .error (hfailed stream encoding head)
  simp only [if_neg hlarge, if_neg hshort]
  cases hread : Stream.readFull length.toNat stream with
  | error err rest => exact .error (hfailed rest encoding head)
  | ok frame rest =>
    dsimp only
    by_cases hcut : frame.length < length.toNat
    · simp only [if_pos hcut]
      exact .error (hfailed rest encoding head)
    simp only [if_neg hcut]
    have haccept : Matches _ _ _ (EnvelopeHead.accept frame head) (EnvelopeHead.accept frame (head.rename encoding)) :=
      EnvelopeHead.tracks_accept frame ⟨encoding, rfl⟩
    generalize EnvelopeHead.accept frame head = result at haccept ⊢
    generalize EnvelopeHead.accept frame (head.rename encoding) = result' at haccept ⊢
    cases haccept with
    | ok h =>
      cases h
      exact .ok rfl
    | @error _ head _ h =>
      obtain ⟨other, rfl⟩ := h
      exact .error (hfailed rest other head)
    | stopped h => exact h.elim

/-- Where no envelope is entered, none is left half read. -/
theorem payload_of_stopped (layer : Enveloped) :
    (∃ entered, await layer = .ok true entered) ∨ (stateOf (await layer)).payload = [] := by
  fun_induction await layer with
  | case1 layer hmore => exact .inl ⟨layer, rfl⟩
  | case2 layer hdone => exact .inr (Decidable.not_not.mp hdone)
  | case3 layer hdone => exact .inr (Decidable.not_not.mp hdone)
  | case4 layer hdone length stream hread err entered hload =>
    refine .inr (Eq.trans ?_ (Decidable.not_not.mp hdone))
    unfold load at hload
    repeat' split at hload
    all_goals first
      | cases hload
        rfl
      | cases hload
  | case5 layer hdone length stream hread entered hload ih => exact ih

/-- The next envelope that has octets is entered alike, or there is none. -/
theorem await_renamed {layer layer' : Enveloped} (h : Renamed layer layer') :
    (∃ entered, await layer = .ok true entered ∧ await layer' = .ok true entered) ∨
      ∃ stopped stopped', Renamed stopped stopped' ∧
        (await layer = .ok false stopped ∧ await layer' = .ok false stopped' ∨
          ∃ err, await layer = .error err stopped ∧ await layer' = .error err stopped') := by
  obtain ⟨hbetween, encoding, rfl⟩ := h
  have hbetween' : (rename encoding layer).payload = [] := hbetween
  have hstopped (stream : Stream) : Renamed { layer with stream } { rename encoding layer with stream } :=
    ⟨hbetween, encoding, rfl⟩
  rw [await_between hbetween, await_between hbetween', show (rename encoding layer).stream = layer.stream from rfl]
  cases Stream.readLength layer.stream with
  | error err stream => exact .inr ⟨_, _, hstopped stream, .inr ⟨err, rfl, rfl⟩⟩
  | ok length? stream =>
    cases length? with
    | none => exact .inr ⟨_, _, hstopped stream, .inl ⟨rfl, rfl⟩⟩
    | some length =>
      have hload := tracks_load length (hstopped stream)
      dsimp only
      generalize hr : load length { layer with stream } = result at hload
      generalize hr' : load length { rename encoding layer with stream } = result' at hload
      cases hload with
      | @ok _ entered _ heq =>
        -- Even an empty envelope names its encoding, so that from here on there is one layer.
        cases heq
        rw [bind_of_ok hr, bind_of_ok hr']
        rcases payload_of_stopped entered with ⟨last, hawait⟩ | hpayload
        · exact .inl ⟨last, hawait, hawait⟩
        · cases hawait : await entered with
          | ok more last =>
            cases more with
            | true => exact .inl ⟨last, rfl, rfl⟩
            | false =>
              rw [hawait] at hpayload
              exact .inr ⟨last, last, .refl hpayload, .inl ⟨rfl, rfl⟩⟩
          | error err last =>
            rw [hawait] at hpayload
            exact .inr ⟨last, last, .refl hpayload, .inr ⟨err, rfl, rfl⟩⟩
      | @error err _ _ hm => exact .inr ⟨_, _, hm, .inr ⟨err, bind_of_error hr, bind_of_error hr'⟩⟩
      | stopped hstop => exact hstop.elim

end Enveloped

namespace Transport

/-- Transports that are the same but for the encoding that the last envelope named, between envelopes. -/
inductive Renamed : Transport → Transport → Prop where
  | same (transport : Transport) : Renamed transport transport
  | header {layer layer' : Enveloped} (h : layer.Renamed layer') : Renamed (.header layer) (.header layer')

private theorem Renamed.available {transport transport' : Transport} (h : Renamed transport transport') :
    transport.available = transport'.available := by
  cases h with
  | same => rfl
  | header h =>
    obtain ⟨-, encoding, rfl⟩ := h
    rfl

/-- They deliver the same. -/
theorem read_renamed {n : Nat} (hn : 0 < n) {transport transport' : Transport} (h : Renamed transport transport') :
    (∃ first more after, read n transport = .ok (first :: more) after ∧ read n transport' = .ok (first :: more) after) ∨
      ∃ after after', Renamed after after' ∧ (read n transport = .ok [] after ∧ read n transport' = .ok [] after' ∨
        ∃ err, read n transport = .error err after ∧ read n transport' = .error err after') := by
  cases h with
  | same =>
    cases hread : read n transport with
    | error err after => exact .inr ⟨after, after, .same after, .inr ⟨err, rfl, rfl⟩⟩
    | ok got after =>
      cases got with
      | nil => exact .inr ⟨after, after, .same after, .inl ⟨rfl, rfl⟩⟩
      | cons first more => exact .inl ⟨first, more, after, rfl, rfl⟩
  | @header layer layer' h =>
    simp only [read, dispatch, onPart, Enveloped.read_eq hn]
    rcases Enveloped.await_renamed h with
      ⟨entered, hawait, hawait'⟩ | ⟨stopped, stopped', hrenamed, ⟨hawait, hawait'⟩ | ⟨err, hawait, hawait'⟩⟩
    · obtain ⟨first, rest, hpayload⟩ := List.exists_cons_of_ne_nil (Enveloped.payload_of_await hawait)
      obtain ⟨size, rfl⟩ := Nat.exists_eq_succ_of_ne_zero (Nat.ne_of_gt hn)
      simp only [hawait, hawait', hpayload, List.take_succ_cons]
      exact .inl ⟨first, rest.take size, _, rfl, rfl⟩
    · simp only [hawait, hawait']
      exact .inr ⟨_, _, .header hrenamed, .inl ⟨rfl, rfl⟩⟩
    · simp only [hawait, hawait']
      exact .inr ⟨_, _, .header hrenamed, .inr ⟨err, rfl, rfl⟩⟩

private theorem pull_renamed {transport transport' : Transport} (h : Renamed transport transport') :
    (∃ first after, pull transport = .ok first after ∧ pull transport' = .ok first after) ∨
      ∃ err after after', Renamed after after' ∧ pull transport = .error err after ∧
        pull transport' = .error err after' := by
  rw [pull_eq, pull_eq]
  rcases read_renamed Nat.zero_lt_one h with
    ⟨first, more, after, hread, hread'⟩ | ⟨after, after', hrenamed, ⟨hread, hread'⟩ | ⟨err, hread, hread'⟩⟩
  · rw [hread, hread']
    exact .inl ⟨first, after, rfl, rfl⟩
  · rw [hread, hread']
    exact .inr ⟨.streamClosed, after, after', hrenamed, rfl, rfl⟩
  · rw [hread, hread']
    exact .inr ⟨err, after, after', hrenamed, rfl, rfl⟩

private theorem upcoming_renamed {transport transport' : Transport} (h : Renamed transport transport') :
    transport.upcoming = transport'.upcoming := by
  rcases pull_renamed h with ⟨first, after, hpull, hpull'⟩ | ⟨err, after, after', hrenamed, hpull, hpull'⟩
  · rw [upcoming_of_pull hpull, upcoming_of_pull hpull']
  · by_cases hless : after.available < transport.available
    · rw [upcoming_of_pull_error hpull, upcoming_of_pull_error hpull']
      exact upcoming_renamed hrenamed
    · rw [upcoming_of_stuck hpull hless, upcoming_of_stuck hpull']
      rwa [← h.available, ← hrenamed.available]
termination_by transport.available

end Transport

namespace Channel

structure Renamed (channel channel' : Channel) : Prop where
  transport : channel.transport.Renamed channel'.transport
  readAhead : channel.readAhead = []
  readAhead' : channel'.readAhead = []

/-- What is read ahead on one of them is read ahead on the other, and then they have the same input. -/
theorem tracks_fill_renamed {n : Nat} (hn : 0 < n) {stop : WireError → Prop} :
    Tracks Renamed (SameInput fun _ _ => True)
      (fun channel channel' => Renamed channel channel' ∨ SameInput (fun _ _ => True) channel channel') stop
      (fill n) (fill n) := by
  intro channel channel' h
  have hshort {ahead : Bytes} (hahead : ahead = []) : ¬n ≤ ahead.length := by
    rw [hahead]
    exact Nat.not_le.mpr hn
  rw [fill, fill, if_neg (hshort h.readAhead), if_neg (hshort h.readAhead')]
  rcases Transport.read_renamed (by decide : 0 < readSize) h.transport with
    ⟨first, more, after, hread, hread'⟩ | ⟨after, after', hrenamed, ⟨hread, hread'⟩ | ⟨err, hread, hread'⟩⟩
  · rw [hread, hread']
    refine Matches.mono (tracks_fill n ⟨rfl, ?_, trivial⟩) (fun _ _ h => h) (fun _ _ h => .inr h) fun _ h => h
    rw [h.readAhead, h.readAhead']
  · rw [hread, hread']
    exact .error (.inl ⟨hrenamed, h.readAhead, h.readAhead'⟩)
  · rw [hread, hread']
    exact .error (.inl ⟨hrenamed, h.readAhead, h.readAhead'⟩)

private theorem tracks_peek_renamed {n : Nat} (hn : 0 < n) {stop : WireError → Prop} :
    Tracks Renamed (SameInput fun _ _ => True)
      (fun channel channel' => Renamed channel channel' ∨ SameInput (fun _ _ => True) channel channel') stop
      (peek n) (peek n) := by
  refine (tracks_fill_renamed hn).bind fun _ => Tracks.get fun channel channel' h => ?_
  rw [h.readAhead]
  exact .pure _

end Channel

namespace Session
variable {config : SessionConfig} {session session' : Session}

/-! ## The next message -/

/-- Sessions that wait for a message with one codec, and that are the same to a reader but for the encoding that the
last envelope named. -/
structure Awaiting (config : SessionConfig) (session session' : Session) : Prop where
  config_left : session.config = config
  config_right : session'.config = config
  endpoint : Endpoint.Beside (Codec.Suits config) Channel.Renamed session.endpoint session'.endpoint

/-- What comes of such sessions where no message came: they wait still, or they have the same input. -/
def Unanswered (config : SessionConfig) (session session' : Session) : Prop :=
  Awaiting config session session' ∨ Beside Pairing.input config session session'

private theorem Awaiting.beside (h : Awaiting config session session')
    (htransport : session.transport = session'.transport) : Beside Pairing.input config session session' :=
  ⟨h.config_left, h.config_right, h.endpoint.codec, h.endpoint.known, 0, htransport,
    h.endpoint.near.readAhead.trans h.endpoint.near.readAhead'.symm, trivial⟩

private theorem Awaiting.tracks_peek {n : Nat} (hn : 0 < n) :
    Tracks (Awaiting config) (Beside Pairing.input config) (Unanswered config) (fun _ => False)
      (onChannel (Channel.peek n)) (onChannel (Channel.peek n)) := by
  have hpeek : Tracks (Endpoint.Beside (Codec.Suits config) Channel.Renamed)
      (Endpoint.Beside (Codec.Suits config) Pairing.input.Near)
      (fun endpoint endpoint' => Endpoint.Beside (Codec.Suits config) Channel.Renamed endpoint endpoint' ∨
        Endpoint.Beside (Codec.Suits config) Pairing.input.Near endpoint endpoint') (fun _ => False)
      (Endpoint.onChannel (Channel.peek n)) (Endpoint.onChannel (Channel.peek n)) :=
    (Channel.tracks_peek_renamed hn).onPart (fun _ _ hs => hs.near) (fun _ _ _ _ hs hm => ⟨hs.codec, hs.known, 0, hm⟩)
      fun _ _ _ _ hs hm => hm.imp (⟨hs.codec, hs.known, ·⟩) (⟨hs.codec, hs.known, 0, ·⟩)
  exact hpeek.onPart (fun _ _ hs => hs.endpoint) (fun _ _ _ _ hs hm => ⟨hs.config_left, hs.config_right, hm⟩)
    fun _ _ _ _ hs hm => hm.imp (⟨hs.config_left, hs.config_right, ·⟩) (⟨hs.config_left, hs.config_right, ·⟩)

/-- The next envelope names its encoding. -/
theorem Awaiting.tracks_negotiateRead :
    Tracks (Awaiting config) (Beside Pairing.input config) (Unanswered config) (fun _ => False) negotiateRead
      negotiateRead := by
  have halike {act : SessionM Unit} (h : Alike Pairing.input config act) :
      Tracks (Beside Pairing.input config) (Beside Pairing.input config) (Unanswered config) (fun _ => False) act act :=
    h.mono (fun _ _ h => h) (fun _ _ h => h) (fun _ _ h => .inr h) fun _ h => h
  intro session session' hs
  have hrenamed : session.transport.Renamed session'.transport := hs.endpoint.near.transport
  generalize ht : session.transport = transport at hrenamed
  generalize ht' : session'.transport = transport' at hrenamed
  cases hrenamed with
  | same => exact halike alike_negotiateRead (hs.beside (ht.trans ht'.symm))
  | header =>
    rw [negotiateRead, bind_of_ok (get_ok session), bind_of_ok (get_ok session), bind_of_ok (get_ok session'),
      bind_of_ok (get_ok session'), ht, ht', hs.config_left, hs.config_right]
    -- The encoding is looked up behind the peek, when the head is that of the next envelope.
    refine ((tracks_peek Nat.zero_lt_one).bind fun _ => Tracks.get fun session session' hs => ?_) hs
    rw [hs.head?]
    split
    · exact halike (alike_switchTo _)
    · exact halike (alike_switchTo _)

/-- So its message is read alike. -/
theorem Awaiting.tracks_readMessageBegin :
    Tracks (Awaiting config) (Beside Pairing.input config) (Unanswered config) (fun _ => False) readMessageBegin
      readMessageBegin := by
  have hrest : Alike Pairing.input config _ := alike_negotiated
  refine tracks_negotiateRead.bind fun _ => ?_
  exact hrest.mono (fun _ _ h => h) (fun _ _ h => h) (fun _ _ h => .inr h) fun _ h => h

/-- Either no message comes in either session, and they wait still, or all is the same that is seen from the head of a
message on. -/
theorem Awaiting.outlooks (h : Awaiting config session session') (readings : List Reading) :
    (∃ err after after', readMessageBegin session = .error err after ∧ readMessageBegin session' = .error err after' ∧
      Awaiting config after after') ∨
    outlooks (.messageBegin :: readings) session = outlooks (.messageBegin :: readings) session' := by
  have hbegun := tracks_readMessageBegin h
  rw [outlooks_messageBegin, outlooks_messageBegin]
  generalize readMessageBegin session = result at hbegun ⊢
  generalize readMessageBegin session' = result' at hbegun ⊢
  cases hbegun with
  | ok hafter => exact .inr (congrArg₂ List.cons (hafter.outlook _) (hafter.outlooks readings))
  | @error err after after' hafter =>
    rcases hafter with hawaiting | hafter
    · exact .inl ⟨err, after, after', rfl, rfl, hawaiting⟩
    · exact .inr (congrArg₂ List.cons (hafter.outlook _) (hafter.outlooks readings))
  | stopped hstop => exact hstop.elim

/-- However often messages are asked for, the same are given, and the same failures. -/
theorem Awaiting.results (h : Awaiting config session session') (attempts : Nat) :
    (Session.outlooks (List.replicate attempts .messageBegin) session).map Outlook.result =
      (Session.outlooks (List.replicate attempts .messageBegin) session').map Outlook.result := by
  induction attempts generalizing session session' with
  | zero => rfl
  | succ attempts ih =>
    rw [List.replicate_succ]
    rcases h.outlooks (List.replicate attempts .messageBegin) with ⟨err, after, after', hr, hr', hawaiting⟩ | hsame
    · rw [outlooks_messageBegin, outlooks_messageBegin, hr, hr']
      exact congrArg (List.cons (.error err)) (ih hawaiting)
    · rw [hsame]

/-! ## A reset session beside a new one -/

def remembering (session old : Session) : Session :=
  match old.transport.head? with
  | none => session
  | some head => session.mapTransport (Transport.mapHead fun _ => head.lasting)

/-- A new session that remembers what lasts of an older one, on the rest of its stream. -/
theorem renamed_remembering {codec codec' : Codec} (h : session.Lasting config) :
    (session.renewed codec).transport.Renamed (remembering ⟨config, codec',
      { transport := .ofStream config.transport session.stream config.maxFrameSize }⟩ session).transport := by
  rw [h.ofStream_eq]
  obtain ⟨config', old, transport, readAhead, pending, captured⟩ := session
  cases transport with
  | raw stream => exact .same _
  | framed layer => exact .same _
  | header layer => exact .header ⟨rfl, .binary, rfl⟩

private theorem remembering_eq (session old : Session) :
    ∃ f, session.remembering old = session.mapTransport f := by
  unfold remembering
  split
  · exact ⟨id, rfl⟩
  · exact ⟨_, rfl⟩

/-- What was read ahead when a session was reset is what it reads first; then it reads what a new one reads on the rest
of the stream. Where nothing was read ahead, nothing is left of the message that was being read, and the next message is
the one that a new session reads. -/
theorem reset_leaves_readAhead (h : Used config session) : ∃ after fresh : Session,
    reset session = .ok () after ∧ ofStream? config session.stream = .ok fresh ∧
    after.endpoint.channel.unread =
      session.endpoint.channel.readAhead ++ (fresh.remembering session).endpoint.channel.unread ∧
    (session.endpoint.channel.readAhead = [] →
      (∀ attempts, (outlooks (List.replicate attempts .messageBegin) after).map Outlook.result =
        (outlooks (List.replicate attempts .messageBegin) (fresh.remembering session)).map Outlook.result) ∧
      ∀ readings, (∃ err last last', readMessageBegin after = .error err last ∧
          readMessageBegin (fresh.remembering session) = .error err last') ∨
        outlooks (.messageBegin :: readings) after =
          outlooks (.messageBegin :: readings) (fresh.remembering session)) := by
  obtain ⟨codec, hcodec⟩ := h.exists_codec
  have hconfig := h.lasting.configured.config_eq
  let fresh : Session :=
    ⟨config, codec, { transport := .ofStream config.transport session.stream config.maxFrameSize }⟩
  have hrenamed : (session.renewed codec).transport.Renamed (fresh.remembering session).transport :=
    renamed_remembering h.lasting
  obtain ⟨f, hf⟩ := remembering_eq fresh session
  refine ⟨session.renewed codec, fresh, reset_eq hconfig hcodec, ?_, ?_, fun hahead => ?_⟩
  · rw [ofStream?, hcodec]
    rfl
  · have hupcoming := Transport.upcoming_renamed hrenamed
    rw [hf] at hupcoming ⊢
    exact congrArg (session.endpoint.channel.readAhead ++ ·) hupcoming
  · have hawaiting : Awaiting config (session.renewed codec) (fresh.remembering session) := by
      rw [hf] at hrenamed ⊢
      exact ⟨hconfig, rfl, rfl, SessionConfig.suits_codec? hcodec, hrenamed, hahead, rfl⟩
    refine ⟨hawaiting.results, fun readings => (hawaiting.outlooks readings).imp_left ?_⟩
    rintro ⟨err, last, last', hlast, hlast', -⟩
    exact ⟨err, last, last', hlast, hlast'⟩

def pongEnvelope : Bytes :=
  [0, 0, 0, 31, 15, 255, 0, 0, 0, 0, 0, 5, 0, 1, 0, 0, 0, 0, 0x80, 1, 0, 1, 0, 0, 0, 4, 112, 111, 110, 103, 0, 0, 0, 2,
    0]

/-- A compact message in an envelope with a lasting header, which has one octet string and a number behind it, and then
a binary message. With the octet string the reader has taken as much as is read ahead at once. -/
def longAndPong : Stream :=
  { unread := [0, 0, 0x20, 0x15, 15, 255, 0, 7, 0, 0, 0, 9, 0, 2, 2, 0, 2, 1, 1, 110, 1, 116, 130, 33, 1, 4, 112, 105,
      110, 103, 0x18, 245, 63] ++ List.replicate 8181 0 ++ [0x15, 14, 0] ++ pongEnvelope }

def amidLong : Enveloped where
  stream := { unread := pongEnvelope }
  maxSize := 16777216
  head := { encoding := .compact, seqId := 9, flags := 7, incomingLasting := Headers.insert ∅ "n" "t" }
  payload := [0x15, 14, 0]

/-- The rest of the message that was being read is dropped with its envelope. -/
theorem reset_leaves_readAhead_amid : ∃ session after fresh : Session, Used { transport := .header } session ∧
    session.endpoint.channel.readAhead = [] ∧
    session.transport = .header amidLong ∧
    reset session = .ok () after ∧ ofStream? { transport := .header } session.stream = .ok fresh ∧
    after.endpoint.channel.unread = (fresh.remembering session).endpoint.channel.unread ∧
    readMessageBegin.run' after = some ⟨"pong", .call, 2⟩ ∧
    outlooks [.messageBegin, .structBegin, .fieldBegin, .structEnd, .messageBegin] after =
      outlooks [.messageBegin, .structBegin, .fieldBegin, .structEnd, .messageBegin] (fresh.remembering session) := by
  obtain ⟨start, hopen, hstart⟩ : ∃ start, ofStream? { transport := .header } longAndPong = .ok start ∧
      start = ⟨{ transport := .header }, .binary { limits := { text := 16777216 } },
        { transport := .header { stream := longAndPong, maxSize := 16777216 } }⟩ := ⟨_, rfl, rfl⟩
  obtain ⟨session, hsession⟩ : ∃ session : Session, session =
      stateOf ((Operation.read .bytes).run (stateOf ((Operation.read .fieldBegin).run
        (stateOf ((Operation.read .structBegin).run (stateOf ((Operation.read .messageBegin).run start))))))) :=
    ⟨_, rfl⟩
  have hused : Used { transport := .header } session := by
    rw [hsession]
    exact .operated (.operated (.operated (.operated (.opened hopen) _) _) _) _
  obtain ⟨after, fresh, hreset, hfresh, hunread, hnext⟩ := reset_leaves_readAhead hused
  obtain ⟨hahead, htransport⟩ : session.endpoint.channel.readAhead = [] ∧
      session.transport = .header amidLong := by
    rw [hsession, hstart]
    decide +kernel
  obtain rfl : after = session.renewed (.binary { limits := { text := 16777216 } }) := by
    rw [reset_eq hused.lasting.configured.config_eq rfl] at hreset
    cases hreset
    rfl
  have hpong : readMessageBegin.run' (session.renewed (.binary { limits := { text := 16777216 } })) =
      some ⟨"pong", .call, 2⟩ := by
    rw [hsession, hstart]
    decide +kernel
  refine ⟨session, _, fresh, hused, hahead, htransport, hreset, hfresh, ?_, hpong, ?_⟩
  · rw [hunread, hahead, List.nil_append]
  · refine ((hnext hahead).2 _).resolve_left ?_
    rintro ⟨err, last, last', hlast, -⟩
    delta EStateM.run' EStateM.run at hpong
    rw [hlast] at hpong
    cases hpong

def stopAndPong : Stream :=
  { unread := [0, 0, 0, 32, 0x80, 1, 0, 1, 0, 0, 0, 4, 112, 105, 110, 103, 0, 0, 0, 1, 11, 0, 1, 0, 0, 0, 4, 115, 116,
      111, 112, 2, 0, 7, 1, 0, 0, 0, 0, 17, 0x80, 1, 0, 1, 0, 0, 0, 4, 112, 111, 110, 103, 0, 0, 0, 2, 0] }

/-- A session that is reset amid a text takes the rest of the old message for the next one, although all of its frame
had been taken from the stream. -/
theorem reset_decodes_old_message : ∃ session after fresh : Session, Used {} session ∧
    session.transport = .framed { stream := { unread := stopAndPong.unread.drop 36 }, maxSize := 16777216 } ∧
    reset session = .ok () after ∧ ofStream? {} session.stream = .ok fresh ∧
    readMessageBegin.run' fresh = some ⟨"pong", .call, 2⟩ ∧
    readMessageBegin.run' after = some ⟨"stop", .reply, 0x70100⟩ := by
  obtain ⟨start, hopen, hstart⟩ : ∃ start, ofStream? {} stopAndPong = .ok start ∧
      start = ⟨{}, .binary { limits := { text := 16777216 } },
        { transport := .framed { stream := stopAndPong, maxSize := 16777216 } }⟩ := ⟨_, rfl, rfl⟩
  obtain ⟨session, hsession⟩ : ∃ session : Session, session =
      stateOf ((Operation.read .fieldBegin).run (stateOf ((Operation.read .structBegin).run
        (stateOf ((Operation.read .messageBegin).run start))))) := ⟨_, rfl⟩
  have hused : Used {} session := by
    rw [hsession]
    exact .operated (.operated (.operated (.opened hopen) _) _) _
  have hreset := @reset_eq {} session (.binary { limits := { text := 16777216 } })
    hused.lasting.configured.config_eq rfl
  refine ⟨session, _, _, hused, ?_, hreset, rfl, ?_, ?_⟩
  · rw [hsession, hstart]
    decide +kernel
  · rw [hsession, hstart]
    decide +kernel
  · rw [hsession, hstart]
    decide +kernel

end Session
end RpcWire
