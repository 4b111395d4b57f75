import RpcWire.Proofs.Arrival
import RpcWire.Proofs.Tracking.Endpoints

/-! Channels side by side: they deliver alike, and take alike what is written, if their transports do. -/
namespace RpcWire

/-- When two transports give the same next octet. The first of them can give less than the number says, where that
matters; it may end early with a failure that stops it. Octets put back on both change nothing. -/
structure Transport.Pairing where
  near : Nat → Transport → Transport → Prop
  stop : WireError → Prop
  widen : ∀ {n m : Nat} {transport transport' : Transport}, n ≤ m → near n transport transport' →
    near m transport transport'
  kind : ∀ {n : Nat} {transport transport' : Transport}, near n transport transport' → transport.kind = transport'.kind
  head? : ∀ {n : Nat} {transport transport' : Transport}, near n transport transport' →
    transport.head? = transport'.head?
  available : ∀ {n : Nat} {transport transport' : Transport}, near n transport transport' →
    transport.available = transport'.available ∨
      stop .streamClosed ∧ transport.available ≤ transport'.available
  putBack : ∀ {n : Nat} {transport transport' : Transport} (bytes : Bytes),
    near n (transport.putBack bytes) (transport'.putBack bytes) ↔ near (n - bytes.length) transport transport'
  pull : ∀ n : Nat, Tracks (near n) (near (n - 1)) (fun transport transport' => ∃ m, near m transport transport') stop
    Transport.pull Transport.pull

namespace Transport.Pairing
variable (pairing : Transport.Pairing)

/-- Looking ahead finds the same. -/
theorem ahead (n size : Nat) : Tracks (pairing.near n) (pairing.near n)
    (fun transport transport' => ∃ m, pairing.near m transport transport') pairing.stop (Transport.ahead size)
    (Transport.ahead size) := by
  induction size generalizing n with
  | zero => exact .pure []
  | succ size ih =>
    intro transport transport' h
    have hpull := pairing.pull n h
    rw [Transport.ahead_succ, Transport.ahead_succ]
    generalize Transport.pull transport = result at hpull
    generalize Transport.pull transport' = result' at hpull
    cases hpull with
    | error hm => exact .error hm
    | stopped hstop => exact .stopped hstop
    | @ok first after after' hm =>
      have hrest := ih (n - 1) hm
      dsimp only
      generalize Transport.ahead size after = result at hrest
      generalize Transport.ahead size after' = result' at hrest
      cases hrest with
      | ok hm => exact .ok ((pairing.putBack [first]).mpr hm)
      | error hm =>
        obtain ⟨m, hm⟩ := hm
        exact .error ⟨m + 1, (pairing.putBack [first]).mpr hm⟩
      | stopped hstop => exact .stopped hstop

structure Joined (n : Nat) (channel channel' : Channel) : Prop where
  source : pairing.near n channel.source channel'.source
  pending : channel.pending = channel'.pending
  captured : channel.captured = channel'.captured

variable {pairing}

structure Filled (pairing : Transport.Pairing) (size n : Nat) (channel channel' : Channel) : Prop where
  joined : pairing.Joined n channel channel'
  le_left : size ≤ channel.readAhead.length
  take : channel.readAhead.take size = channel'.readAhead.take size

/-- Reading ahead gets the same octets. -/
theorem tracks_fill (n size : Nat) : Tracks (pairing.Joined n) (pairing.Filled size n)
    (fun channel channel' => ∃ m, pairing.Joined m channel channel') pairing.stop (Channel.fill size)
    (Channel.fill size) := by
  intro channel channel' h
  have hahead := pairing.ahead n size h.source
  obtain ⟨transport, readAhead, hfill⟩ := Channel.fill_ahead size channel
  obtain ⟨transport', readAhead', hfill'⟩ := Channel.fill_ahead size channel'
  have hjoin {m : Nat} (hm : pairing.near m (transport.putBack readAhead) (transport'.putBack readAhead')) :
      pairing.Joined m { channel with transport, readAhead }
        { channel' with transport := transport', readAhead := readAhead' } := ⟨hm, h.pending, h.captured⟩
  rcases hfill with ⟨hfill, hlen, hlook⟩ | ⟨err, hfill, hlook⟩
  · rw [hlook] at hahead
    rw [hfill]
    rcases hfill' with ⟨hfill', -, hlook'⟩ | ⟨err', hfill', hlook'⟩
    · rw [hlook'] at hahead
      rw [hfill']
      obtain ⟨htake, hm⟩ := hahead.of_ok
      exact .ok ⟨hjoin hm, hlen, htake⟩
    · rw [hlook'] at hahead
      cases hahead
  · rw [hlook] at hahead
    rw [hfill]
    rcases hahead.of_error with hstop | ⟨after', hlook', m, hm⟩
    · exact .stopped hstop
    · rcases hfill' with ⟨-, -, hother⟩ | ⟨err', hfill', hother⟩
      · rw [hlook'] at hother
        cases hother
      · rw [hlook'] at hother
        cases hother
        rw [hfill']
        exact .error ⟨m, hjoin hm⟩

/-- Octets that both have read ahead are consumed on both. -/
theorem Filled.consume {n size : Nat} {channel channel' : Channel} (h : pairing.Filled size n channel channel') :
    pairing.Joined (n - size)
      { channel with
        readAhead := channel.readAhead.drop size
        captured := channel.captured.map (· ++ channel.readAhead.take size) }
      { channel' with
        readAhead := channel'.readAhead.drop size
        captured := channel'.captured.map (· ++ channel'.readAhead.take size) } := by
  refine ⟨?_, h.joined.pending, by rw [h.take, h.joined.captured]⟩
  have hsource := h.joined.source
  rw [Channel.source, ← List.take_append_drop size channel.readAhead, ← Transport.putBack_append, Channel.source,
    ← List.take_append_drop size channel'.readAhead, ← Transport.putBack_append, ← h.take, pairing.putBack,
    List.length_take, Nat.min_eq_left h.le_left] at hsource
  exact hsource

theorem tracks_peek (n size : Nat) : Tracks (pairing.Joined n) (pairing.Joined n)
    (fun channel channel' => ∃ m, pairing.Joined m channel channel') pairing.stop (Channel.peek size)
    (Channel.peek size) := by
  refine (tracks_fill n size).bind fun _ => Tracks.get fun channel channel' h => ?_
  rw [h.take]
  exact fun _ _ h => .ok h.joined

theorem tracks_read (n : Nat) {size : Nat} (hsize : 0 < size) : Tracks (pairing.Joined n) (pairing.Joined (n - 1))
    (fun channel channel' => ∃ m, pairing.Joined m channel channel') pairing.stop (Channel.read size)
    (Channel.read size) := by
  refine (tracks_fill n size).bind fun _ channel channel' h => ?_
  have hless : pairing.Joined (n - 1) _ _ :=
    ⟨pairing.widen (Nat.sub_le_sub_left hsize n) h.consume.source, h.consume.pending, h.consume.captured⟩
  simp only [bind, EStateM.bind, get_ok, set_ok, ← h.take] at hless ⊢
  exact .ok hless

def channels (pairing : Transport.Pairing) : RpcWire.Pairing where
  near := pairing.Joined
  stop := pairing.stop
  widen hle h := ⟨pairing.widen hle h.source, h.pending, h.captured⟩
  kind h := by simpa [Channel.source] using pairing.kind h.source
  head? h := by simpa [Channel.source] using pairing.head? h.source
  available h := by
    rw [← Channel.available_source, ← Channel.available_source]
    exact pairing.available h.source
  peek := tracks_peek
  read n _ := tracks_read n

/-- Captures start and end on both of two such channels, and hold the same. -/
theorem captures (pairing : Transport.Pairing) : pairing.channels.Captures pairing.channels where
  start := fun ⟨n, h⟩ => ⟨n, h.source, h.pending, rfl⟩
  capture := fun ⟨_, h⟩ => by rw [Channel.capture, h.captured, Channel.capture]
  finish := fun ⟨n, h⟩ => ⟨n, h.source, h.pending, rfl⟩
  stop := fun _ h => h

end Transport.Pairing

/-! ## Writing -/

/-- The change has to do with the input alone. -/
structure Stream.Inward (f : Stream → Stream) : Prop where
  written : ∀ stream, (f stream).written = stream.written
  limit : ∀ stream, (f stream).limit = stream.limit
  apart : ∀ (stream : Stream) (written : Bytes) (limit : Option WriteLimit),
    f { stream with written, limit } = { f stream with written, limit }

/-- Writing has nothing to do with the input. -/
theorem Stream.commutes_write {f : Stream → Stream} (hf : Inward f) (bytes : Bytes) : Commutes f (write bytes) := by
  intro stream
  cases hlimit : stream.limit with
  | none =>
    simp only [write, hf.limit, hf.written, hlimit]
    exact congrArg (EStateM.Result.ok ()) (hf.apart stream _ none).symm
  | some limit =>
    simp only [write, hf.limit, hf.written, hlimit]
    split
    · exact congrArg (EStateM.Result.ok ()) (hf.apart stream _ _).symm
    · exact congrArg (EStateM.Result.error _) (hf.apart stream _ _).symm

namespace Framed

theorem commutes_write (f : Stream → Stream) (r : Nat → Nat) (bytes : Bytes) :
    Commutes (fun layer => { layer with stream := f layer.stream, remaining := r layer.remaining })
      (write bytes) := by
  intro layer
  simp only [write]
  split
  · rfl
  · rfl

theorem commutes_flush {f : Stream → Stream} (hf : ∀ bytes, Commutes f (Stream.write bytes)) (r : Nat → Nat) :
    Commutes (fun layer => { layer with stream := f layer.stream, remaining := r layer.remaining }) flush := by
  intro layer
  by_cases hnone : layer.pending = []
  · obtain ⟨stream, maxSize, remaining, pending⟩ := layer
    obtain rfl : pending = [] := hnone
    rfl
  · have hwrite := hf (encode layer.pending) layer.stream
    simp only [flush, bind, EStateM.bind, get_ok, set_ok, hnone, if_false, onStream, onPart, hwrite]
    cases Stream.write (encode layer.pending) layer.stream with
    | ok value stream => rfl
    | error err stream => rfl

end Framed

namespace Enveloped

theorem commutes_write (f : Stream → Stream) (p : Bytes → Bytes) (bytes : Bytes) :
    Commutes (fun layer => { layer with stream := f layer.stream, payload := p layer.payload }) (write bytes) :=
  fun _ => rfl

theorem commutes_flush {f : Stream → Stream} (hf : ∀ bytes, Commutes f (Stream.write bytes)) (p : Bytes → Bytes) :
    Commutes (fun layer => { layer with stream := f layer.stream, payload := p layer.payload }) flush := by
  intro layer
  simp only [flush]
  split
  · rfl
  split
  · rfl
  split
  · rfl
  rw [hf _ layer.stream]
  cases Stream.write _ layer.stream with
  | ok value stream => rfl
  | error err stream => rfl

end Enveloped

namespace Transport

theorem commutes_dispatch {α : Type} {f : Transport → Transport} {raw : StreamM α} {framed : FramedM α}
    {header : EnvelopedM α} {onRaw : Stream → Stream} {onFramed : Framed → Framed} {onHeader : Enveloped → Enveloped}
    (hraw : Commutes onRaw raw) (hframed : Commutes onFramed framed) (hheader : Commutes onHeader header)
    (hf : (∀ stream, f (.raw stream) = .raw (onRaw stream)) ∧ (∀ layer, f (.framed layer) = .framed (onFramed layer)) ∧
      ∀ layer, f (.header layer) = .header (onHeader layer)) : Commutes f (dispatch raw framed header) := by
  obtain ⟨honRaw, honFramed, honHeader⟩ := hf
  intro transport
  cases transport with
  | raw stream =>
    have hact := hraw stream
    rw [honRaw]
    simp only [dispatch, onPart]
    rw [hact]
    cases raw stream with
    | ok value after => simp only [honRaw]
    | error err after => simp only [honRaw]
  | framed layer =>
    have hact := hframed layer
    rw [honFramed]
    simp only [dispatch, onPart]
    rw [hact]
    cases framed layer with
    | ok value after => simp only [honFramed]
    | error err after => simp only [honFramed]
  | header layer =>
    have hact := hheader layer
    rw [honHeader]
    simp only [dispatch, onPart]
    rw [hact]
    cases header layer with
    | ok value after => simp only [honHeader]
    | error err after => simp only [honHeader]

private theorem inward_putBack (bytes : Bytes) :
    Stream.Inward fun stream => { stream with unread := bytes ++ stream.unread } :=
  ⟨fun _ => rfl, fun _ => rfl, fun _ _ _ => rfl⟩

/-- What is written goes past the octets that are put back. -/
theorem commutes_write (bytes written : Bytes) : Commutes (putBack bytes) (write written) :=
  commutes_dispatch (Stream.commutes_write (inward_putBack bytes) written)
    (Framed.commutes_write (fun stream => { stream with unread := bytes ++ stream.unread }) (bytes.length + ·) written)
    (Enveloped.commutes_write id (bytes ++ ·) written)
    ⟨fun _ => rfl, fun _ => rfl, fun _ => rfl⟩

private theorem commutes_flush (bytes : Bytes) : Commutes (putBack bytes) flush :=
  commutes_dispatch (Commutes.pure ())
    (Framed.commutes_flush (Stream.commutes_write (inward_putBack bytes)) (bytes.length + ·))
    (Enveloped.commutes_flush (Stream.commutes_write ⟨fun _ => rfl, fun _ => rfl, fun _ _ _ => rfl⟩) (bytes ++ ·))
    ⟨fun _ => rfl, fun _ => rfl, fun _ => rfl⟩

private theorem mapHead_putBack (f : EnvelopeHead → EnvelopeHead) (bytes : Bytes) (transport : Transport) :
    (transport.mapHead f).putBack bytes = (transport.putBack bytes).mapHead f := by
  cases transport <;> rfl

structure TwoWay extends Transport.Pairing where
  write : ∀ (n : Nat) (bytes : Bytes), Tracks (near n) (near n)
    (fun transport transport' => ∃ m, near m transport transport') stop (Transport.write bytes) (Transport.write bytes)
  flush : ∀ n : Nat, Tracks (near n) (near n) (fun transport transport' => ∃ m, near m transport transport') stop
    Transport.flush Transport.flush
  mapHead : ∀ {n : Nat} {transport transport' : Transport} (f : EnvelopeHead → EnvelopeHead),
    near n transport transport' → near n (transport.mapHead f) (transport'.mapHead f)

namespace TwoWay
variable {twoWay : TwoWay}

/-- What goes past the octets put back does the same on channels as on their transports. -/
theorem tracks_onTransport {act : TransportM Unit} (n : Nat)
    (hact : Tracks (twoWay.near n) (twoWay.near n) (fun transport transport' => ∃ m, twoWay.near m transport transport')
      twoWay.stop act act) (hback : ∀ bytes, Commutes (putBack bytes) act) :
    Tracks (twoWay.Joined n) (twoWay.Joined n) (fun channel channel' => ∃ m, twoWay.Joined m channel channel')
      twoWay.stop (Channel.onTransport act) (Channel.onTransport act) := by
  intro channel channel' h
  have hsource := hact h.source
  rw [Channel.source, Channel.source, hback, hback] at hsource
  simp only [Channel.onTransport, onPart]
  generalize act channel.transport = result at hsource
  generalize act channel'.transport = result' at hsource
  cases result with
  | ok value after =>
    cases result' with
    | ok value' after' => exact .ok ⟨hsource.of_ok.2, h.pending, h.captured⟩
    | error err after' => cases hsource
  | error err after =>
    rcases hsource.of_error with hstop | ⟨behind, hresult, m, hm⟩
    · exact .stopped hstop
    · cases result' with
      | ok value' after' => cases hresult
      | error err' after' =>
        cases hresult
        exact .error ⟨m, hm, h.pending, h.captured⟩

private theorem tracks_write (n : Nat) (bytes : Bytes) : Tracks (twoWay.Joined n) (twoWay.Joined n)
    (fun channel channel' => ∃ m, twoWay.Joined m channel channel') twoWay.stop (Channel.write bytes)
    (Channel.write bytes) :=
  Tracks.modify fun _ _ h => ⟨h.source, congrArg (· ++ bytes) h.pending, h.captured⟩

private theorem tracks_flush (n : Nat) : Tracks (twoWay.Joined n) (twoWay.Joined n)
    (fun channel channel' => ∃ m, twoWay.Joined m channel channel') twoWay.stop Channel.flush Channel.flush := by
  refine Tracks.get fun channel channel' h => ?_
  rw [h.pending]
  have hflush := tracks_onTransport n (twoWay.flush n) commutes_flush
  refine .ite (fun _ => ?_) fun _ => hflush
  refine Tracks.bind (Tracks.modify fun _ _ h => ?_) fun _ =>
    (tracks_onTransport n (twoWay.write n _) fun bytes => commutes_write bytes _).bind fun _ => hflush
  exact ⟨h.source, rfl, h.captured⟩

def channels (twoWay : TwoWay) : RpcWire.TwoWay where
  toPairing := twoWay.toPairing.channels
  write := tracks_write
  flush := tracks_flush
  mapHead f h := by
    refine ⟨?_, h.pending, h.captured⟩
    simp only [Channel.source, mapHead_putBack]
    exact twoWay.mapHead f h.source

end TwoWay
end Transport
end RpcWire
