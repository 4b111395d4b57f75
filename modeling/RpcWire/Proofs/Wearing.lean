import RpcWire.Proofs.Outgoing
import RpcWire.Proofs.Reusing

/-! What a session keeps of its settings while it is used. Neither reading nor sending changes what the client says of
itself, and nothing is left that waits to be sent; codec and flags of the envelope are those of what came last. -/
namespace RpcWire
variable {settings : PoolSettings}

/-! ## Reading -/

/-- Of the client, envelopes say what the settings say. -/
structure EnvelopeHead.Introduces (settings : PoolSettings) (head : EnvelopeHead) : Prop where
  identity : head.identity = settings.identity
  lasting : head.outgoingLasting = settings.lastingHeaders
  once : head.outgoing = ∅

namespace EnvelopeHead.Scan

def Introduces (settings : PoolSettings) (scan : Scan) : Prop := scan.head.Introduces settings

private theorem maintains_byte : Maintains (Introduces settings) byte := by
  intro scan h
  unfold byte
  split
  · exact h
  · exact h

private theorem maintains_groups (most : Nat) : Maintains (Introduces settings) (groups most) := by
  induction most with
  | zero => exact .throw _
  | succ most ih => exact maintains_byte.bind fun _ => .ite (ih.bind fun _ => .pure _) (.pure _)

private theorem maintains_varint :
    Maintains (Introduces settings) varint := (maintains_groups 5).bind fun _ => .pure _

private theorem maintains_text : Maintains (Introduces settings) text := by
  refine maintains_varint.bind fun length => .get fun scan h => .check ((Maintains.set ?_).bind fun _ => ?_)
  · exact h
  · split
    · exact .throw _
    · exact .pure _

private theorem maintains_entries {keep : EnvelopeHead → String → String → EnvelopeHead}
    (hkeep : ∀ head name value, head.Introduces settings → (keep head name value).Introduces settings) (count : Nat) :
    Maintains (Introduces settings) (entries keep count) := by
  induction count with
  | zero => exact .pure _
  | succ count ih =>
    refine maintains_text.bind fun name => maintains_text.bind fun value => Maintains.bind (.modify ?_) fun _ => ih
    exact fun scan h => hkeep scan.head name value h

private theorem maintains_runs (most : Nat) : Maintains (Introduces settings) (runs most) := by
  induction most with
  | zero => exact .pure _
  | succ most ih =>
    have hentries {keep : EnvelopeHead → String → String → EnvelopeHead}
        (hkeep : ∀ head name value, head.Introduces settings → (keep head name value).Introduces settings) :
        Maintains (Introduces settings) (do entries keep (← varint).toNat; runs most) :=
      maintains_varint.bind fun _ => (maintains_entries hkeep _).bind fun _ => ih
    refine .get fun scan _ => .ite (.pure _) (maintains_varint.bind fun kind => ?_)
    exact .ite (hentries fun _ _ _ h => ⟨h.identity, h.lasting, h.once⟩)
      (.ite (hentries fun _ _ _ h => ⟨h.identity, h.lasting, h.once⟩) (.pure _))

private theorem maintains_block : Maintains (Introduces settings) block := by
  have hrest : Maintains (Introduces settings) (do
      modify fun scan => { scan with head := { scan.head with incoming := ∅ } }
      runs (← MonadState.get).rest.length
      modify fun scan =>
        { scan with head := { scan.head with peerIdentity := scan.head.incoming.get? identityName } }) := by
    refine Maintains.bind (.modify ?_) fun _ => .get fun scan _ => (maintains_runs _).bind fun _ => .modify ?_
    · exact fun _ h => ⟨h.identity, h.lasting, h.once⟩
    · exact fun _ h => ⟨h.identity, h.lasting, h.once⟩
  refine maintains_varint.bind fun encoding => Maintains.bind (.modify ?_) fun _ =>
    maintains_varint.bind fun transforms => ?_
  · exact fun _ h => ⟨h.identity, h.lasting, h.once⟩
  · exact .ite (maintains_varint.bind fun _ => (Maintains.throw _).bind fun _ => hrest) hrest

end EnvelopeHead.Scan

private theorem EnvelopeHead.maintains_decodeBlock (bytes : Bytes) :
    Maintains (Introduces settings) (decodeBlock bytes) := by
  intro head h
  have hblock : Maintains (Scan.Introduces settings) Scan.block := Scan.maintains_block
  unfold decodeBlock
  cases hr : Scan.block ⟨bytes, head⟩ with
  | ok value scan => exact hblock.of_ok hr h
  | error err scan => exact hblock.of_error hr h

private theorem EnvelopeHead.maintains_accept (frame : Bytes) :
    Maintains (Introduces settings) (accept frame) := by
  unfold accept
  refine Maintains.check (Maintains.bind (.modify ?_) fun _ => ?_)
  · exact fun _ h => ⟨h.identity, h.lasting, h.once⟩
  · exact .check ((maintains_decodeBlock _).bind fun _ => .pure _)

/-- Nothing waits to be sent, and frames of the size of the settings are taken. -/
structure Framed.Clear (settings : PoolSettings) (layer : Framed) : Prop where
  maxSize : layer.maxSize = settings.session.maxFrameSize
  pending : layer.pending = []

namespace Framed

private theorem maintains_await : Maintains (Clear settings) await := by
  intro layer
  fun_induction await layer with
  | case1 layer hinside => exact id
  | case5 layer hdone length stream hread hfit ih => exact fun h => ih ⟨h.maxSize, h.pending⟩
  | _ => exact fun h => ⟨h.maxSize, h.pending⟩

private theorem maintains_read (n : Nat) : Maintains (Clear settings) (read n) := by
  refine .ite (.pure _) (maintains_await.bind fun more => .ite (.pure _) (.get fun layer _ => ?_))
  refine Maintains.bind (.onPart (q := fun _ => True) (fun _ _ => trivial) (fun _ _ => trivial)
    fun _ _ h _ => ⟨h.maxSize, h.pending⟩) fun bytes => .check ?_
  exact Maintains.bind (.modify fun _ h => ⟨h.maxSize, h.pending⟩) fun _ => .pure bytes

end Framed

/-- Nothing waits to be sent, envelopes of the size of the settings are taken, and they say of the client what the
settings say. -/
structure Enveloped.Clear (settings : PoolSettings) (layer : Enveloped) : Prop where
  maxSize : layer.maxSize = settings.session.maxFrameSize
  pending : layer.pending = []
  head : layer.head.Introduces settings

namespace Enveloped

private theorem maintains_load (length : UInt32) : Maintains (Clear settings) (load length) := by
  intro layer h
  have haccept (frame : Bytes) : Maintains (EnvelopeHead.Introduces settings) (EnvelopeHead.accept frame) :=
    EnvelopeHead.maintains_accept frame
  unfold load
  split
  · exact h
  split
  · exact h
  split
  · exact ⟨h.maxSize, h.pending, h.head⟩
  split
  · exact ⟨h.maxSize, h.pending, h.head⟩
  split
  · next hr => exact ⟨h.maxSize, h.pending, (haccept _).of_error hr h.head⟩
  · next hr => exact ⟨h.maxSize, h.pending, (haccept _).of_ok hr h.head⟩

private theorem maintains_await : Maintains (Clear settings) await := by
  intro layer
  fun_induction await layer with
  | case1 layer hinside => exact id
  | case4 layer hdone length stream hread err entered hload =>
    exact fun h => (maintains_load length).of_error hload ⟨h.maxSize, h.pending, h.head⟩
  | case5 layer hdone length stream hread entered hload ih =>
    exact fun h => ih ((maintains_load length).of_ok hload ⟨h.maxSize, h.pending, h.head⟩)
  | _ => exact fun h => ⟨h.maxSize, h.pending, h.head⟩

private theorem maintains_read (n : Nat) : Maintains (Clear settings) (read n) := by
  refine .ite (.pure _) (maintains_await.bind fun more => .ite (.pure _) (.get fun layer h => ?_))
  exact (Maintains.set ⟨h.maxSize, h.pending, h.head⟩).bind fun _ => .pure _

end Enveloped

namespace Transport

def Clear (settings : PoolSettings) : Transport → Prop
  | .raw _ => settings.session.transport = .raw
  | .framed layer => settings.session.transport = .framed ∧ layer.Clear settings
  | .header layer => settings.session.transport = .header ∧ layer.Clear settings

private theorem maintains_read (n : Nat) : Maintains (Clear settings) (read n) := by
  intro transport h
  cases transport with
  | raw stream =>
    rw [read, dispatch, onPart]
    cases Stream.read n stream <;> exact h
  | framed layer =>
    have hlayer := Framed.maintains_read n h.2
    rw [read, dispatch, onPart]
    cases hr : Framed.read n layer <;> rw [hr] at hlayer <;> exact ⟨h.1, hlayer⟩
  | header layer =>
    have hlayer := Enveloped.maintains_read n h.2
    rw [read, dispatch, onPart]
    cases hr : Enveloped.read n layer <;> rw [hr] at hlayer <;> exact ⟨h.1, hlayer⟩

end Transport

namespace Channel

structure Clear (settings : PoolSettings) (channel : Channel) : Prop where
  pending : channel.pending = []
  transport : channel.transport.Clear settings

private theorem maintains_fill (n : Nat) : Maintains (Clear settings) (fill n) := by
  intro channel
  have hread : Maintains (Transport.Clear settings) (Transport.read readSize) := Transport.maintains_read readSize
  fun_induction fill n channel with
  | case1 channel hle => exact id
  | case2 channel hle err after hr => exact fun h => ⟨h.pending, hread.of_error hr h.transport⟩
  | case3 channel hle after hr => exact fun h => ⟨h.pending, hread.of_ok hr h.transport⟩
  | case4 channel hle first more after hr ih => exact fun h => ih ⟨h.pending, hread.of_ok hr h.transport⟩

private theorem maintains_peek (n : Nat) : Maintains (Clear settings) (peek n) :=
  (maintains_fill n).bind fun _ => .get fun _ _ => .pure _

private theorem maintains_read (n : Nat) : Maintains (Clear settings) (read n) := by
  refine (maintains_fill n).bind fun _ => .get fun channel h => (Maintains.set ?_).bind fun _ => .pure _
  exact ⟨h.pending, h.transport⟩

end Channel

def Pairing.clear (settings : PoolSettings) : Pairing where
  near _ channel channel' := channel = channel' ∧ channel.Clear settings
  stop _ := False
  widen _ h := h
  kind h := congrArg (·.transport.kind) h.1
  head? h := congrArg (·.transport.head?) h.1
  available h := .inl (congrArg Channel.available h.1)
  peek _ size := (Channel.maintains_peek size).tracks.mono (fun _ _ h => h) (fun _ _ h => h) (fun _ _ h => ⟨0, h⟩)
    fun _ h => h
  read _ size _ := (Channel.maintains_read size).tracks.mono (fun _ _ h => h) (fun _ _ h => h) (fun _ _ h => ⟨0, h⟩)
    fun _ h => h

namespace Session

/-- A session as the settings have it, but for its codec, whose encoding and version may be others, and for what the
other side has told. -/
structure Worn (settings : PoolSettings) (session : Session) : Prop where
  config : session.config = settings.session
  suits : session.endpoint.codec.Suits settings.session
  channel : session.endpoint.channel.Clear settings

variable {α : Type} {session after : Session}

/-- What goes alike beside itself leaves a session worn. -/
theorem Worn.maintains {act : SessionM α} (h : Alike (Pairing.clear settings) settings.session act) :
    Maintains (Worn settings) act := by
  intro session hworn
  have hact := h (⟨hworn.config, hworn.config, rfl, hworn.suits, 0, rfl, hworn.channel⟩ :
    Beside (Pairing.clear settings) settings.session session session)
  cases hr : act session with
  | ok value after =>
    rw [hr] at hact
    obtain ⟨-, hafter⟩ := hact.of_ok
    exact ⟨hafter.config_left, hafter.endpoint.known, hafter.endpoint.near.choose_spec.2⟩
  | error err after =>
    rw [hr] at hact
    rcases hact.of_error with hstop | ⟨_, -, hafter⟩
    · exact hstop.elim
    · exact ⟨hafter.config_left, hafter.endpoint.known, hafter.endpoint.near.choose_spec.2⟩

end Session

/-! ## Sending -/

def TwoWay.same : TwoWay where
  near _ := Eq
  stop _ := False
  widen _ h := h
  kind h := congrArg (·.transport.kind) h
  head? h := congrArg (·.transport.head?) h
  available h := .inl (congrArg Channel.available h)
  peek _ _ := Tracks.same fun _ => ⟨0, rfl⟩
  read _ _ _ := Tracks.same fun _ => ⟨0, rfl⟩
  write _ _ := Tracks.same fun _ => ⟨0, rfl⟩
  flush _ := Tracks.same fun _ => ⟨0, rfl⟩
  mapHead f h := congrArg (fun channel => { channel with transport := channel.transport.mapHead f }) h

/-- What is set for one message alone: not who the client is, and none of its lasting headers. -/
def EnvelopeHead.Passing (f : EnvelopeHead → EnvelopeHead) : Prop :=
  ∀ head, (f head).identity = head.identity ∧ (f head).outgoingLasting = head.outgoingLasting

namespace Transport
variable {transport : Transport} {f : EnvelopeHead → EnvelopeHead}

private theorem Clear.withheld_mapHead (h : transport.Clear settings) (f : EnvelopeHead → EnvelopeHead) :
    (transport.mapHead f).withheld = [] := by
  cases transport with
  | raw stream => rfl
  | framed layer => exact h.2.pending
  | header layer => exact h.2.pending

/-- What was set for one envelope is gone once it is sent. -/
theorem Clear.sent (h : transport.Clear settings) (hf : EnvelopeHead.Passing f) (payload : Bytes) :
    ((transport.mapHead f).sent payload).Clear settings := by
  cases transport with
  | raw stream => exact h
  | framed layer => exact ⟨h.1, h.2.maxSize, rfl⟩
  | header layer =>
    obtain ⟨hidentity, hlasting⟩ := hf layer.head
    exact ⟨h.1, h.2.maxSize, rfl, hidentity.trans h.2.head.identity, hlasting.trans h.2.head.lasting, rfl⟩

end Transport

private theorem WireM.clear_sent {header : MessageHeader} {body : WireM Unit} {codec : Codec}
    {channel : Channel}
    {f : EnvelopeHead → EnvelopeHead} {after : Endpoint Codec} (hbody : Gathers body) (h : channel.Clear settings)
    (hf : EnvelopeHead.Passing f)
    (hr : (do writeMessageBegin header; body; flush)
      ⟨codec, { channel with transport := channel.transport.mapHead f }⟩ = .ok () after) :
    after.channel.Clear settings := by
  obtain ⟨⟨⟩, middle, hhead, hrest⟩ := ok_of_bind_ok hr
  obtain ⟨⟨⟩, last, hgather, hflush⟩ := ok_of_bind_ok hrest
  obtain ⟨-, -, rfl⟩ := (writes_messageBegin codec header _).eq_of_ok hhead
  obtain ⟨codec', bytes, ⟨_, hok⟩ | ⟨err, herr⟩⟩ := hbody codec
  · rw [hok] at hgather
    cases hgather
    rw [flush, Endpoint.onChannel] at hflush
    obtain ⟨part, hpart, rfl⟩ := ok_of_onPart_ok hflush
    have hne : channel.pending ++ codec.format.message header ++ bytes ≠ [] := List.append_ne_nil_of_left_ne_nil
      (List.append_ne_nil_of_right_ne_nil _ (Format.message_ne_nil _ _)) _
    obtain ⟨-, -, rfl⟩ := (Channel.flush_okIff hne (h.transport.withheld_mapHead f)).eq_of_ok hpart
    exact ⟨rfl, h.transport.sent hf _⟩
  · rw [herr] at hgather
    cases hgather

/-- What is written and read of a call is made of what a codec does, and the arguments are only gathered. -/
structure Call.Plain {α : Type} (call : Call α) : Prop where
  gathers : Gathers call.arguments
  arguments : ∀ (twoWay : TwoWay) (config : SessionConfig) (n : Nat),
    Follows twoWay.toPairing (Codec.Suits config) n n call.arguments call.arguments
  result : ∀ (pairing : Pairing) (config : SessionConfig) (n : Nat),
    Follows pairing (Codec.Suits config) n n call.result call.result

/-- A message that was sent leaves its session worn. -/
theorem Session.Worn.sent {header : MessageHeader} {body : WireM Unit} {session after : Session}
    {f : EnvelopeHead → EnvelopeHead} (h : session.Worn settings) (hf : EnvelopeHead.Passing f)
    (hgathers : Gathers body)
    (hbody : ∀ n, Follows TwoWay.same.toPairing (Codec.Suits settings.session) n n body body)
    (hr : send header body (session.mapTransport (Transport.mapHead f)) = .ok () after) : after.Worn settings := by
  have hbeside : Beside TwoWay.same.toPairing settings.session (session.mapTransport (Transport.mapHead f))
      (session.mapTransport (Transport.mapHead f)) := ⟨h.config, h.config, rfl, h.suits, 0, rfl⟩
  have halike : Alike TwoWay.same.toPairing settings.session (send header body) :=
    (alike_writeMessageBegin header).seq ((Alike.onWire hbody).seq alike_flush)
  have hmatches := halike hbeside
  rw [hr] at hmatches
  obtain ⟨-, hafter⟩ := hmatches.of_ok
  refine ⟨hafter.config_left, hafter.endpoint.known, ?_⟩
  rw [send_eq] at hr
  obtain ⟨part, hpart, rfl⟩ := ok_of_onPart_ok hr
  let g (head : EnvelopeHead) : EnvelopeHead := { head with
    encoding := session.encoding
    seqId := if header.kind.isRequest then header.seqId.toUInt32 else head.seqId }
  have haddressed : ((session.mapTransport (Transport.mapHead f)).addressed header).endpoint =
      ⟨session.endpoint.codec.reset, { session.endpoint.channel with
        transport := session.endpoint.channel.transport.mapHead (g ∘ f) }⟩ := by
    obtain ⟨config, codec, transport, readAhead, pending, captured⟩ := session
    cases transport <;> rfl
  have hpassing : EnvelopeHead.Passing (g ∘ f) := hf
  rw [haddressed] at hpart
  exact WireM.clear_sent hgathers h.channel hpassing hpart

end RpcWire
