import RpcWire.Proofs.Operations
import RpcWire.Proofs.Tracking.Channels

/-! In how large pieces a stream delivers its octets makes no difference to anything that a session does. -/
namespace RpcWire

namespace Stream

def rechunk (chunk : Option Nat) (stream : Stream) : Stream := { stream with chunk }

private theorem inward_rechunk (chunk : Option Nat) : Inward (rechunk chunk) :=
  ⟨fun _ => rfl, fun _ => rfl, fun _ _ _ => rfl⟩

private theorem commutes_readFull (chunk : Option Nat) (n : Nat) : Commutes (rechunk chunk) (readFull n) := by
  intro stream
  have hunread : (rechunk chunk stream).unread = stream.unread := rfl
  by_cases h : n ≤ stream.unread.length
  · rw [readFull_front h, readFull_front (hunread ▸ h)]
    rfl
  · have hshort := Nat.lt_of_not_le h
    rw [readFull_short hshort, readFull_short (hunread ▸ hshort)]
    simp only [rechunk]
    cases stream.ending with
    | none => rfl
    | some err => rfl

private theorem commutes_readLength (chunk : Option Nat) : Commutes (rechunk chunk) readLength := by
  refine (commutes_readFull chunk 4).bind fun bytes => ?_
  split
  · exact .pure none
  · split
    · exact .throw _
    · exact .pure _

/-- A single octet comes alone in pieces of any size. -/
theorem commutes_readOne (chunk : Option Nat) : Commutes (rechunk chunk) (read 1) := by
  intro stream
  have hsame : (rechunk chunk stream).unread = stream.unread := rfl
  cases hunread : stream.unread with
  | nil =>
    rw [read_nil 1 hunread, read_nil 1 (hsame.trans hunread)]
    rw [show (rechunk chunk stream).ending = stream.ending from rfl]
    cases stream.ending with
    | none => rfl
    | some err => rfl
  | cons first rest =>
    obtain ⟨more, hmore, hread⟩ := read_cons Nat.zero_lt_one hunread
    obtain ⟨more', hmore', hread'⟩ := read_cons Nat.zero_lt_one (hsame.trans hunread)
    obtain ⟨rfl, rfl⟩ := And.intro (Nat.lt_one_iff.mp hmore) (Nat.lt_one_iff.mp hmore')
    rw [hread, hread']
    rfl

end Stream

namespace Framed

def rechunk (chunk : Option Nat) (layer : Framed) : Framed := { layer with stream := layer.stream.rechunk chunk }

private theorem commutes_await (chunk : Option Nat) : Commutes (rechunk chunk) await := by
  intro layer
  have hlength (layer : Framed) := Stream.commutes_readLength chunk layer.stream
  fun_induction await layer with
  | case1 layer hmore =>
    rw [await_eq]
    exact if_pos hmore
  | case2 layer hdone err stream hread =>
    rw [await_eq]
    simp only [rechunk, if_neg hdone, hlength, hread]
  | case3 layer hdone stream hread =>
    rw [await_eq]
    simp only [rechunk, if_neg hdone, hlength, hread]
  | case4 layer hdone length stream hread hlarge =>
    rw [await_eq]
    simp only [rechunk, if_neg hdone, hlength, hread]
    exact if_pos hlarge
  | case5 layer hdone length stream hread hfit ih =>
    rw [← ih, await_eq (rechunk chunk layer)]
    simp only [rechunk, if_neg hdone, hlength, hread]
    exact if_neg hfit

private theorem commutes_readOne (chunk : Option Nat) : Commutes (rechunk chunk) (read 1) := by
  intro layer
  rw [read_eq Nat.zero_lt_one, read_eq Nat.zero_lt_one, commutes_await chunk layer]
  cases hawait : await layer with
  | error err entered => rfl
  | ok more entered =>
    cases more with
    | false => rfl
    | true =>
      have hsize : min 1 entered.remaining = 1 := by
        have := remaining_of_await hawait
        omega
      have hread := Stream.commutes_readOne chunk entered.stream
      simp only [rechunk, hsize, hread]
      cases Stream.read 1 entered.stream with
      | error err stream => rfl
      | ok got stream =>
        cases got with
        | nil => rfl
        | cons first rest => rfl

end Framed

namespace Enveloped

def rechunk (chunk : Option Nat) (layer : Enveloped) : Enveloped :=
  { layer with stream := layer.stream.rechunk chunk }

private theorem commutes_load (chunk : Option Nat) (length : UInt32) :
    Commutes (rechunk chunk) (load length) := by
  intro layer
  have hread := Stream.commutes_readFull chunk length.toNat layer.stream
  simp only [load, rechunk, hread]
  split
  · rfl
  · split
    · rfl
    · cases Stream.readFull length.toNat layer.stream with
      | error err stream => rfl
      | ok frame stream =>
        dsimp only
        split
        · rfl
        · cases EnvelopeHead.accept frame layer.head with
          | error err head => rfl
          | ok payload head => rfl

private theorem commutes_await (chunk : Option Nat) : Commutes (rechunk chunk) await := by
  intro layer
  have hlength (layer : Enveloped) := Stream.commutes_readLength chunk layer.stream
  fun_induction await layer with
  | case1 layer hmore =>
    rw [await_eq]
    exact if_pos hmore
  | case2 layer hdone err stream hread =>
    rw [await_eq]
    simp only [rechunk, if_neg hdone, hlength, hread]
  | case3 layer hdone stream hread =>
    rw [await_eq]
    simp only [rechunk, if_neg hdone, hlength, hread]
  | case4 layer hdone length stream hread err entered hload =>
    have hloaded := commutes_load chunk length { layer with stream }
    rw [hload] at hloaded
    simp only [rechunk] at hloaded
    rw [await_eq]
    simp only [rechunk, if_neg hdone, hlength, hread, hloaded]
  | case5 layer hdone length stream hread entered hload ih =>
    have hloaded := commutes_load chunk length { layer with stream }
    rw [hload] at hloaded
    rw [← ih, await_eq (rechunk chunk layer)]
    simp only [rechunk] at hloaded ⊢
    simp only [ if_neg hdone, hlength, hread, hloaded]

private theorem commutes_readOne (chunk : Option Nat) : Commutes (rechunk chunk) (read 1) := by
  intro layer
  rw [read_eq Nat.zero_lt_one, read_eq Nat.zero_lt_one, commutes_await chunk layer]
  cases await layer with
  | error err entered => rfl
  | ok more entered =>
    cases more with
    | false => rfl
    | true => rfl

end Enveloped

namespace Transport

def rechunk (chunk : Option Nat) (transport : Transport) : Transport :=
  transport.withStream (transport.stream.rechunk chunk)

private theorem rechunk_layers (chunk : Option Nat) :
    (∀ stream, (raw stream).rechunk chunk = .raw (stream.rechunk chunk)) ∧
    (∀ layer, (framed layer).rechunk chunk = .framed (layer.rechunk chunk)) ∧
    ∀ layer, (header layer).rechunk chunk = .header (layer.rechunk chunk) :=
  ⟨fun _ => rfl, fun _ => rfl, fun _ => rfl⟩

theorem rechunk_chunk (transport : Transport) : transport.rechunk transport.stream.chunk = transport := by
  cases transport <;> rfl

private theorem commutes_pull_rechunk (chunk : Option Nat) : Commutes (rechunk chunk) pull := by
  refine (commutes_dispatch (Stream.commutes_readOne chunk) (Framed.commutes_readOne chunk)
    (Enveloped.commutes_readOne chunk) (rechunk_layers chunk)).bind fun got => ?_
  cases got with
  | nil => exact .throw _
  | cons first rest => exact .pure first

private theorem commutes_write_rechunk (chunk : Option Nat) (bytes : Bytes) :
    Commutes (rechunk chunk) (write bytes) :=
  commutes_dispatch (Stream.commutes_write (Stream.inward_rechunk chunk) bytes)
    (Framed.commutes_write (Stream.rechunk chunk) id bytes) (Enveloped.commutes_write (Stream.rechunk chunk) id bytes)
    (rechunk_layers chunk)

private theorem commutes_flush_rechunk (chunk : Option Nat) : Commutes (rechunk chunk) flush :=
  commutes_dispatch (.pure ()) (Framed.commutes_flush (Stream.commutes_write (Stream.inward_rechunk chunk)) id)
    (Enveloped.commutes_flush (Stream.commutes_write (Stream.inward_rechunk chunk)) id) (rechunk_layers chunk)

private theorem rechunk_putBack (chunk : Option Nat) (bytes : Bytes) (transport : Transport) :
    (transport.rechunk chunk).putBack bytes = (transport.putBack bytes).rechunk chunk := by
  cases transport <;> rfl

private theorem mapHead_rechunk (f : EnvelopeHead → EnvelopeHead) (chunk : Option Nat) (transport : Transport) :
    (transport.rechunk chunk).mapHead f = (transport.mapHead f).rechunk chunk := by
  cases transport <;> rfl

@[simp] theorem written_rechunk (chunk : Option Nat) (transport : Transport) :
    (transport.rechunk chunk).stream.written = transport.stream.written := by
  cases transport <;> rfl

def pieces : TwoWay where
  near _ transport transport' := ∃ chunk, transport' = transport.rechunk chunk
  stop _ := False
  widen _ h := h
  kind := by
    rintro _ transport _ ⟨chunk, rfl⟩
    cases transport <;> rfl
  head? := by
    rintro _ transport _ ⟨chunk, rfl⟩
    cases transport <;> rfl
  available := by
    rintro _ transport _ ⟨chunk, rfl⟩
    cases transport <;> exact .inl rfl
  putBack bytes := exists_congr fun chunk => by
    rw [← rechunk_putBack]
    exact (putBack_injective bytes).eq_iff
  pull _ := (Commutes.tracks commutes_pull_rechunk).mono (fun _ _ h => h) (fun _ _ h => h) (fun _ _ h => ⟨0, h⟩)
    fun _ h => h
  write _ bytes := (Commutes.tracks fun chunk => commutes_write_rechunk chunk bytes).mono (fun _ _ h => h)
    (fun _ _ h => h) (fun _ _ h => ⟨0, h⟩) fun _ h => h
  flush _ := (Commutes.tracks commutes_flush_rechunk).mono (fun _ _ h => h) (fun _ _ h => h) (fun _ _ h => ⟨0, h⟩)
    fun _ h => h
  mapHead := by
    rintro _ transport _ f ⟨chunk, rfl⟩
    exact ⟨chunk, mapHead_rechunk f chunk transport⟩

end Transport

namespace Session

structure Configured (config : SessionConfig) (session : Session) : Prop where
  config_eq : session.config = config
  suits : session.endpoint.codec.Suits config

theorem Configured.of_open {config : SessionConfig} {stream : Stream} {session : Session}
    (h : ofStream? config stream = .ok session) : session.Configured config := by
  obtain ⟨codec, hcodec, rfl⟩ := eq_of_open h
  exact ⟨rfl, SessionConfig.suits_codec? hcodec⟩

/-- An action that does the same whatever the pieces keeps the settings, also where it fails. -/
theorem Configured.of_alike {α : Type} {config : SessionConfig} {act : SessionM α} {session after : Session}
    (h : session.Configured config) (hact : Alike Transport.pieces.channels.toPairing config act)
    (hrun : (∃ value, act session = .ok value after) ∨ ∃ err, act session = .error err after) :
    after.Configured config := by
  have hsame := hact ⟨h.config_eq, h.config_eq, rfl, h.suits, 0, ⟨_, (Transport.rechunk_chunk _).symm⟩, rfl, rfl⟩
  rcases hrun with ⟨value, hrun⟩ | ⟨err, hrun⟩
  · rw [hrun] at hsame
    exact ⟨hsame.of_ok.2.config_left, hsame.of_ok.2.endpoint.known⟩
  · rw [hrun] at hsame
    rcases hsame.of_error with hstop | ⟨after', -, hafter⟩
    · exact hstop.elim
    · exact ⟨hafter.config_left, hafter.endpoint.known⟩

/-- What is seen of an operation: what it gives, and then the output, the codec at work and what the envelopes say. -/
structure Sight where
  result : Except WireError Answer
  written : Bytes
  encoding : Encoding
  version : Option CompactVersion
  head : Option EnvelopeHead

def sights (operations : List Operation) : Session → List Sight :=
  trace (fun result session => ⟨result, session.stream.written, session.encoding,
    session.endpoint.codec.compactVersion?, session.transport.head?⟩) (operations.map Operation.run)

theorem Beside.written {config : SessionConfig} {session session' : Session}
    (h : Beside Transport.pieces.channels.toPairing config session session') :
    session.stream.written = session'.stream.written := by
  obtain ⟨n, hn⟩ := h.endpoint.near
  obtain ⟨chunk, hsource⟩ := hn.source
  have hwritten := congrArg (fun transport : Transport => transport.stream.written) hsource
  simpa [Channel.source, stream, Session.transport] using hwritten.symm

/-- Nothing that is seen of a session tells in how large pieces its input arrives. -/
theorem sights_rechunk (config : SessionConfig) (stream : Stream) (operations : List Operation)
    (chunk chunk' : Option Nat) :
    (ofStream? config (stream.rechunk chunk)).map (sights operations) =
      (ofStream? config (stream.rechunk chunk')).map (sights operations) := by
  unfold ofStream?
  cases hcodec : config.codec? config.encoding with
  | error err => rfl
  | ok codec =>
    have hacts : ∀ act ∈ operations.map Operation.run,
        Alike Transport.pieces.channels.toPairing config act := by
      intro act hact
      obtain ⟨operation, -, rfl⟩ := List.mem_map.mp hact
      exact alike_operation Transport.pieces.captures operation
    refine congrArg Except.ok (trace_eq hacts (fun _ h => h) (fun result session session' h => ?_) ?_)
    · rw [h.written, h.encoding, h.version, h.head?]
    · refine ⟨rfl, rfl, rfl, SessionConfig.suits_codec? hcodec, 0, ⟨chunk', ?_⟩, rfl, rfl⟩
      cases config.transport <;> rfl

end Session
end RpcWire
