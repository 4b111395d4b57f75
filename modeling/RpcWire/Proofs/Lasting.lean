import RpcWire.Proofs.Boundaries
import RpcWire.Proofs.Wrapping

/-! What lasts as long as a session: its settings, and the layer that they ask for. No operation changes either, and
neither does a failure. -/
namespace RpcWire

namespace Framed
variable {max : UInt32}

private theorem maintains_maxSize_await : Maintains (·.maxSize = max) await := by
  intro layer
  fun_induction await layer with
  | case5 layer hdone length stream hread hfit ih => exact ih
  | _ => exact id

private theorem maintains_maxSize_read (n : Nat) : Maintains (·.maxSize = max) (read n) := by
  refine .ite (.pure _) (maintains_maxSize_await.bind fun more => .ite (.pure _) (.get fun layer _ => ?_))
  refine Maintains.bind (.onPart (q := fun _ => True) (fun _ _ => trivial) (fun _ _ => trivial) fun _ _ h _ => h)
    fun bytes => .check ?_
  exact Maintains.bind (.modify fun _ h => h) fun _ => .pure bytes

private theorem maintains_maxSize_write (bytes : Bytes) : Maintains (·.maxSize = max) (write bytes) := by
  intro layer h
  rw [write]
  split
  · exact h
  · exact h

private theorem maintains_maxSize_flush : Maintains (·.maxSize = max) flush := by
  refine .get fun layer h => .ite (.pure ()) ((Maintains.set ?_).bind fun _ => ?_)
  · exact h
  · exact .onPart (q := fun _ => True) (fun _ _ => trivial) (fun _ _ => trivial) fun _ _ h _ => h

end Framed

namespace Enveloped
variable {max : UInt32}

private theorem maintains_maxSize_load (length : UInt32) : Maintains (·.maxSize = max) (load length) := by
  intro layer h
  unfold load
  repeat' split
  all_goals exact h

private theorem maintains_maxSize_await : Maintains (·.maxSize = max) await := by
  intro layer
  fun_induction await layer with
  | case4 layer hdone length stream hread err entered hload =>
    exact fun h => (maintains_maxSize_load length).of_error hload h
  | case5 layer hdone length stream hread entered hload ih =>
    exact fun h => ih ((maintains_maxSize_load length).of_ok hload h)
  | _ => exact id

private theorem maintains_maxSize_read (n : Nat) : Maintains (·.maxSize = max) (read n) := by
  refine .ite (.pure _) (maintains_maxSize_await.bind fun more => .ite (.pure _) (.get fun layer h => ?_))
  refine (Maintains.set ?_).bind fun _ => .pure _
  exact h

private theorem maintains_maxSize_flush : Maintains (·.maxSize = max) flush := by
  intro layer h
  simp only [flush]
  repeat' split
  all_goals exact h

end Enveloped

namespace Transport

def layer (transport : Transport) : TransportKind × UInt32 := (transport.kind, transport.maxSize)

variable {layer : TransportKind × UInt32}

theorem layer_mapHead (f : EnvelopeHead → EnvelopeHead) (transport : Transport) :
    (transport.mapHead f).layer = transport.layer := by
  cases transport <;> rfl

private theorem layer_reset (transport : Transport) : transport.reset.layer = transport.layer := by
  cases transport <;> rfl

private theorem layer_ofStream (kind : TransportKind) (stream stream' : Stream) (max : UInt32) :
    (ofStream kind stream max).layer = (ofStream kind stream' max).layer := by
  cases kind <;> rfl

private theorem maintains_dispatch {α : Type} {raw : StreamM α} {framed : FramedM α} {header : EnvelopedM α}
    (hframed : ∀ max, Maintains (·.maxSize = max) framed) (hheader : ∀ max, Maintains (·.maxSize = max) header) :
    Maintains (·.layer = layer) (dispatch raw framed header) := by
  rintro transport rfl
  cases transport with
  | raw stream =>
    simp only [dispatch, onPart]
    cases raw stream <;> rfl
  | framed frames =>
    have hact := hframed frames.maxSize (rfl : frames.maxSize = frames.maxSize)
    simp only [dispatch, onPart]
    cases hr : framed frames <;> rw [hr] at hact <;> exact congrArg (TransportKind.framed, ·) hact
  | header envelopes =>
    have hact := hheader envelopes.maxSize (rfl : envelopes.maxSize = envelopes.maxSize)
    simp only [dispatch, onPart]
    cases hr : header envelopes <;> rw [hr] at hact <;> exact congrArg (TransportKind.header, ·) hact

private theorem maintains_layer_read (n : Nat) : Maintains (·.layer = layer) (read n) :=
  maintains_dispatch (fun _ => Framed.maintains_maxSize_read n) fun _ => Enveloped.maintains_maxSize_read n

private theorem maintains_layer_write (bytes : Bytes) : Maintains (·.layer = layer) (write bytes) :=
  maintains_dispatch (fun _ => Framed.maintains_maxSize_write bytes) fun _ => .modify fun _ h => h

private theorem maintains_layer_flush : Maintains (·.layer = layer) flush :=
  maintains_dispatch (fun _ => Framed.maintains_maxSize_flush) fun _ => Enveloped.maintains_maxSize_flush

end Transport

namespace Channel
variable {layer : TransportKind × UInt32}

private theorem maintains_layer_fill (n : Nat) : Maintains (·.transport.layer = layer) (fill n) := by
  intro channel
  have hread : Maintains (·.layer = layer) (Transport.read readSize) := Transport.maintains_layer_read readSize
  fun_induction fill n channel with
  | case1 channel hle => exact id
  | case2 channel hle err after hr => exact hread.of_error hr
  | case3 channel hle after hr => exact hread.of_ok hr
  | case4 channel hle first more after hr ih => exact fun h => ih (hread.of_ok hr h)

private theorem maintains_layer_peek (n : Nat) : Maintains (·.transport.layer = layer) (peek n) :=
  (maintains_layer_fill n).bind fun _ => .get fun _ _ => .pure _

private theorem maintains_layer_read (n : Nat) : Maintains (·.transport.layer = layer) (read n) := by
  refine (maintains_layer_fill n).bind fun _ => .get fun channel h => (Maintains.set ?_).bind fun _ => .pure _
  exact h

private theorem maintains_layer_write (bytes : Bytes) : Maintains (·.transport.layer = layer) (write bytes) :=
  .modify fun _ h => h

private theorem maintains_layer_flush : Maintains (·.transport.layer = layer) flush := by
  have hon {act : TransportM Unit} (h : Maintains (·.layer = layer) act) :
      Maintains (·.transport.layer = layer) (onTransport act) := h.onPart (fun _ h => h) fun _ _ _ h => h
  refine .get fun channel _ => .ite ?_ (hon Transport.maintains_layer_flush)
  exact Maintains.bind (.modify fun _ h => h) fun _ => (hon (Transport.maintains_layer_write _)).bind fun _ =>
    hon Transport.maintains_layer_flush

end Channel

/-- A channel beside itself, on such a layer. -/
def TwoWay.layered (layer : TransportKind × UInt32) : TwoWay where
  near _ channel channel' := channel = channel' ∧ channel.transport.layer = layer
  stop _ := False
  widen _ h := h
  kind h := congrArg (·.transport.kind) h.1
  head? h := congrArg (·.transport.head?) h.1
  available h := .inl (congrArg Channel.available h.1)
  peek _ size := (Channel.maintains_layer_peek size).tracks.mono (fun _ _ h => h) (fun _ _ h => h) (fun _ _ h => ⟨0, h⟩)
    fun _ h => h
  read _ size _ := (Channel.maintains_layer_read size).tracks.mono (fun _ _ h => h) (fun _ _ h => h)
    (fun _ _ h => ⟨0, h⟩) fun _ h => h
  write _ bytes := (Channel.maintains_layer_write bytes).tracks.mono (fun _ _ h => h) (fun _ _ h => h)
    (fun _ _ h => ⟨0, h⟩) fun _ h => h
  flush _ := Channel.maintains_layer_flush.tracks.mono (fun _ _ h => h) (fun _ _ h => h) (fun _ _ h => ⟨0, h⟩)
    fun _ h => h
  mapHead f h := ⟨congrArg (fun channel => { channel with transport := channel.transport.mapHead f }) h.1,
    (Transport.layer_mapHead f _).trans h.2⟩

private theorem TwoWay.captures_layered (layer : TransportKind × UInt32) :
    (layered layer).toPairing.Captures (layered layer).toPairing where
  start := fun ⟨n, h⟩ => ⟨n, congrArg Channel.startCapture h.1, h.2⟩
  capture := fun ⟨_, h⟩ => congrArg Channel.capture h.1
  finish := fun ⟨n, h⟩ => ⟨n, congrArg Channel.stopCapture h.1, h.2⟩
  stop _ h := h

namespace Session
variable {config : SessionConfig} {session : Session}

structure Lasting (config : SessionConfig) (session : Session) : Prop where
  configured : session.Configured config
  layer : session.transport.layer = (Transport.ofStream config.transport {} config.maxFrameSize).layer

/-- A new layer for the settings is one of the kind and the size that the session has. -/
theorem Lasting.ofStream_eq (h : session.Lasting config) (stream : Stream) :
    Transport.ofStream config.transport stream config.maxFrameSize =
      .ofStream session.transport.kind stream session.transport.maxSize := by
  have hkind : session.transport.kind = config.transport :=
    (congrArg Prod.fst h.layer).trans (Transport.kind_ofStream config.transport {} config.maxFrameSize)
  have hsize : session.transport.maxSize = (Transport.ofStream config.transport {} config.maxFrameSize).maxSize :=
    congrArg Prod.snd h.layer
  rw [hkind, hsize]
  cases config.transport <;> rfl

theorem Lasting.of_open {stream : Stream} (h : ofStream? config stream = .ok session) : session.Lasting config := by
  refine ⟨.of_open h, ?_⟩
  obtain ⟨codec, -, rfl⟩ := eq_of_open h
  exact Transport.layer_ofStream config.transport stream {} config.maxFrameSize

private theorem maintains_lasting (operation : Operation) : Maintains (Lasting config) operation.run := by
  intro session h
  have hact := alike_operation (TwoWay.captures_layered session.transport.layer) operation
    (⟨h.configured.config_eq, h.configured.config_eq, rfl, h.configured.suits, 0, rfl, rfl⟩ :
      Beside (TwoWay.layered session.transport.layer).toPairing config session session)
  cases hr : operation.run session with
  | ok answer after =>
    rw [hr] at hact
    obtain ⟨-, hafter⟩ := hact.of_ok
    exact ⟨⟨hafter.config_left, hafter.endpoint.known⟩, hafter.endpoint.near.choose_spec.2.trans h.layer⟩
  | error err after =>
    rw [hr] at hact
    rcases hact.of_error with hstop | ⟨_, -, hafter⟩
    · exact hstop.elim
    · exact ⟨⟨hafter.config_left, hafter.endpoint.known⟩, hafter.endpoint.near.choose_spec.2.trans h.layer⟩

/-- A session that is reset has a new codec, and nothing is left of a message that was not sent, or of a frame or an
envelope under way. -/
def renewed (codec : Codec) (session : Session) : Session :=
  { session with endpoint :=
      ⟨codec, { session.endpoint.channel with pending := [], transport := session.transport.reset }⟩ }

/-- A session can always be reset if its settings name an encoding that there is. -/
theorem reset_eq {codec : Codec} (hconfig : session.config = config)
    (hcodec : config.codec? config.encoding = .ok codec) : reset session = .ok () (session.renewed codec) := by
  rw [reset, bind_of_ok (get_ok session), hconfig, hcodec]
  rfl

/-- The sessions that users bring about. Operations may fail, and whoever has a session may do with its transport as he
likes: read and write past the session, say something in the envelopes to come, or have more input arrive; but he puts
no other transport in its place. -/
inductive Used (config : SessionConfig) : Session → Prop where
  | opened {stream : Stream} {session : Session} (h : ofStream? config stream = .ok session) : Used config session
  | operated {session : Session} (before : Used config session) (operation : Operation) :
    Used config (stateOf (operation.run session))
  | reset {session : Session} (before : Used config session) : Used config (stateOf (reset session))
  | handled {session : Session} (before : Used config session) (f : Transport → Transport)
      (hf : ∀ transport, (f transport).layer = transport.layer) : Used config (session.mapTransport f)

theorem Used.exists_codec (h : Used config session) : ∃ codec, config.codec? config.encoding = .ok codec := by
  induction h with
  | opened h =>
    obtain ⟨codec, hcodec, -⟩ := eq_of_open h
    exact ⟨codec, hcodec⟩
  | operated before operation ih => exact ih
  | reset before ih => exact ih
  | handled before f hf ih => exact ih

/-- Whatever its users do, a session keeps its settings and its layer. -/
theorem Used.lasting (h : Used config session) : session.Lasting config := by
  induction h with
  | opened h => exact .of_open h
  | operated before operation ih => exact maintains_lasting operation ih
  | @reset session before ih =>
    obtain ⟨codec, hcodec⟩ := before.exists_codec
    rw [reset_eq ih.configured.config_eq hcodec]
    exact ⟨⟨ih.configured.config_eq, SessionConfig.suits_codec? hcodec⟩,
      (Transport.layer_reset session.transport).trans ih.layer⟩
  | handled before f hf ih => exact ⟨⟨ih.configured.config_eq, ih.configured.suits⟩, (hf _).trans ih.layer⟩

end Session
end RpcWire
