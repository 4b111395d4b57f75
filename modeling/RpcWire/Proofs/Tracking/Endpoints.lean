import RpcWire.Codec.Endpoint
import RpcWire.Proofs.Tracking

/-! Codecs side by side: one codec on two channels that deliver alike does the same on both. -/
namespace RpcWire

/-- When two channels deliver alike. The first of them can deliver less than the number says, where that matters, and it
may end early with a failure that stops it. -/
structure Pairing where
  near : Nat → Channel → Channel → Prop
  stop : WireError → Prop
  widen : ∀ {n m : Nat} {channel channel' : Channel}, n ≤ m → near n channel channel' → near m channel channel'
  kind : ∀ {n : Nat} {channel channel' : Channel}, near n channel channel' →
    channel.transport.kind = channel'.transport.kind
  head? : ∀ {n : Nat} {channel channel' : Channel}, near n channel channel' →
    channel.transport.head? = channel'.transport.head?
  available : ∀ {n : Nat} {channel channel' : Channel}, near n channel channel' →
    channel.available = channel'.available ∨ stop .streamClosed ∧ channel.available ≤ channel'.available
  peek : ∀ n size : Nat, Tracks (near n) (near n) (fun channel channel' => ∃ m, near m channel channel') stop
    (Channel.peek size) (Channel.peek size)
  /-- An octet that was read cannot be delivered any more. -/
  read : ∀ (n : Nat) {size : Nat}, 0 < size → Tracks (near n) (near (n - 1))
    (fun channel channel' => ∃ m, near m channel channel') stop (Channel.read size) (Channel.read size)

namespace Pairing

def Near (pairing : Pairing) (channel channel' : Channel) : Prop :=
  ∃ n, pairing.near n channel channel'

/-- When the number bounds what the first channel can still deliver. -/
def Sized (pairing : Pairing) : Prop :=
  (∀ channel channel', ¬pairing.near 0 channel channel') ∧
    ∀ {n : Nat} {channel channel' : Channel}, pairing.near n channel channel' →
      pairing.near (channel.available + 1) channel channel'

end Pairing

/-- When reading goes alike with a capture as well: while one runs, the channels are related more closely. -/
structure Pairing.Captures (pairing during : Pairing) : Prop where
  start : ∀ {channel channel' : Channel}, pairing.Near channel channel' →
    during.Near channel.startCapture channel'.startCapture
  capture : ∀ {channel channel' : Channel}, during.Near channel channel' → channel.capture = channel'.capture
  finish : ∀ {channel channel' : Channel}, during.Near channel channel' →
    pairing.Near channel.stopCapture channel'.stopCapture
  stop : ∀ err, during.stop err → pairing.stop err

structure TwoWay extends Pairing where
  write : ∀ (n : Nat) (bytes : Bytes), Tracks (near n) (near n) (fun channel channel' => ∃ m, near m channel channel')
    stop (Channel.write bytes) (Channel.write bytes)
  flush : ∀ n : Nat, Tracks (near n) (near n) (fun channel channel' => ∃ m, near m channel channel') stop
    Channel.flush Channel.flush
  mapHead : ∀ {n : Nat} {channel channel' : Channel} (f : EnvelopeHead → EnvelopeHead), near n channel channel' →
    near n { channel with transport := channel.transport.mapHead f }
      { channel' with transport := channel'.transport.mapHead f }

structure Endpoint.Beside {κ : Type} (known : κ → Prop) (near : Channel → Channel → Prop)
    (endpoint endpoint' : Endpoint κ) : Prop where
  codec : endpoint.codec = endpoint'.codec
  known : known endpoint.codec
  near : near endpoint.channel endpoint'.channel

/-- Two actions of a codec do the same on channels that deliver alike, and keep what is known of the codec. -/
def Follows {κ α : Type} (pairing : Pairing) (known : κ → Prop) (n m : Nat) (act act' : CodecM κ α) : Prop :=
  Tracks (Endpoint.Beside known (pairing.near n)) (Endpoint.Beside known (pairing.near m))
    (Endpoint.Beside known pairing.Near) pairing.stop act act'

namespace Follows
variable {κ α β : Type} {pairing : Pairing} {known : κ → Prop} {n m k : Nat} {act act' : CodecM κ α}

theorem pure (value : α) : Follows pairing known n n (pure value) (pure value) :=
  Tracks.pure value

theorem throw (err : WireError) : Follows pairing known n m (throw err : CodecM κ α) (throw err) :=
  Tracks.throw err fun _ _ h => ⟨h.codec, h.known, n, h.near⟩

theorem bind {next next' : α → CodecM κ β} (h : Follows pairing known n m act act')
    (hnext : ∀ value, Follows pairing known m k (next value) (next' value)) :
    Follows pairing known n k (act >>= next) (act' >>= next') :=
  Tracks.bind h hnext

theorem seq {next next' : CodecM κ β} {act act' : CodecM κ Unit} (h : Follows pairing known n m act act')
    (hnext : Follows pairing known m k next next') :
    Follows pairing known n k (do act; next) (do act'; next') :=
  h.bind fun _ => hnext

/-- What is made of a result changes nothing. -/
theorem map (f : α → β) (h : Follows pairing known n m act act') :
    Follows pairing known n m (do return f (← act)) (do return f (← act')) :=
  h.bind fun value => .pure (f value)

theorem ite {cond : Prop} [Decidable cond] {other other' : CodecM κ α}
    (h : cond → Follows pairing known n m act act') (hother : ¬cond → Follows pairing known n m other other') :
    Follows pairing known n m (if cond then act else other) (if cond then act' else other') :=
  Tracks.ite h hother

theorem widen (h : Follows pairing known n m act act') (hle : m ≤ k) : Follows pairing known n k act act' :=
  Tracks.mono h (fun _ _ hs => hs) (fun _ _ hs => ⟨hs.codec, hs.known, pairing.widen hle hs.near⟩) (fun _ _ hs => hs)
    fun _ hs => hs

/-- That an octet was read need not be kept in mind. -/
theorem plain (h : Follows pairing known n (n - 1) act act') : Follows pairing known n n act act' :=
  h.widen (Nat.sub_le n 1)

/-- Looking at the codec. -/
theorem get {next next' : Endpoint κ → CodecM κ α}
    (h : ∀ endpoint endpoint', endpoint.codec = endpoint'.codec → known endpoint.codec →
      Follows pairing known n m (next endpoint) (next' endpoint')) :
    Follows pairing known n m (get >>= next) (get >>= next') :=
  Tracks.get fun endpoint endpoint' hs => h endpoint endpoint' hs.codec hs.known

theorem onChannel {act act' : ChannelM α}
    (h : Tracks (pairing.near n) (pairing.near m) pairing.Near pairing.stop act act') :
    Follows pairing known n m (Endpoint.onChannel act) (Endpoint.onChannel act') :=
  Tracks.onPart h (fun _ _ hs => hs.near) (fun _ _ _ _ hs hm => ⟨hs.codec, hs.known, hm⟩)
    fun _ _ _ _ hs hm => ⟨hs.codec, hs.known, hm⟩

end Follows

namespace Channel

private theorem read_zero (channel : Channel) : read 0 channel = .ok [] channel := by
  have hfill : fill 0 channel = .ok () channel := by rw [fill, if_pos (Nat.zero_le _)]
  have hcaptured : channel.captured.map (· ++ []) = channel.captured := by
    cases channel.captured <;> simp
  rw [read, bind_of_ok hfill, bind_of_ok (get_ok channel)]
  simp only [List.take_zero, List.drop_zero, hcaptured]
  rfl

end Channel

namespace Endpoint
variable {κ : Type} {pairing : Pairing} {known : κ → Prop} {n : Nat}

theorem follows_byte : Follows pairing known n (n - 1) (readByte : CodecM κ UInt8) readByte :=
  .onChannel ((pairing.read n (by decide)).bind fun bytes => .pure (bytes.headD 0))

theorem follows_bigEndian {width : Nat} (hw : 0 < width) :
    Follows pairing known n (n - 1) (readBigEndian width : CodecM κ Nat) (readBigEndian width) :=
  .onChannel ((pairing.read n hw).bind fun bytes => .pure bytes.toNat)

theorem follows_bytes (size : Nat) :
    Follows pairing known n n (onChannel (Channel.read size) : CodecM κ Bytes) (onChannel (Channel.read size)) := by
  cases size with
  | zero =>
    refine .onChannel fun channel channel' h => ?_
    rw [Channel.read_zero, Channel.read_zero]
    exact .ok h
  | succ size => exact (Follows.onChannel (pairing.read n size.succ_pos)).plain

theorem follows_checkLimit (size limit : Nat) :
    Follows pairing known n n (checkLimit size limit : CodecM κ Unit) (checkLimit size limit) :=
  .ite (fun _ => .throw _) fun _ => .pure ()

theorem follows_checkWritable (size : Nat) :
    Follows pairing known n n (checkWritable size : CodecM κ Unit) (checkWritable size) :=
  .ite (fun _ => .throw _) fun _ => .pure ()

theorem follows_decodeText (bytes : Bytes) :
    Follows pairing known n n (decodeText bytes : CodecM κ String) (decodeText bytes) := by
  rw [decodeText]
  split
  · exact .throw _
  · exact .pure _

theorem follows_decodeTag (byte : UInt8) :
    Follows pairing known n n (decodeTag byte : CodecM κ Tag) (decodeTag byte) := by
  rw [decodeTag]
  split
  · exact .throw _
  · exact .pure _

theorem follows_decodeKind (byte : UInt8) :
    Follows pairing known n n (decodeKind byte : CodecM κ MessageKind) (decodeKind byte) := by
  rw [decodeKind]
  split
  · exact .throw _
  · exact .pure _

variable {twoWay : TwoWay}

theorem follows_write (bytes : Bytes) :
    Follows twoWay.toPairing known n n (write bytes : CodecM κ Unit) (write bytes) :=
  .onChannel (twoWay.write n bytes)

theorem follows_writeByte (byte : UInt8) :
    Follows twoWay.toPairing known n n (writeByte byte : CodecM κ Unit) (writeByte byte) :=
  follows_write [byte]

end Endpoint
end RpcWire
