import RpcWire.Proofs.Drawing.Values
import RpcWire.Proofs.Matching

/-! Telling the encoding of a message from its first two octets. Every message that a codec reads begins in a way in
which no message of the other encoding does, so a session that goes by the beginning reads what one of the two codecs
would read, and nothing else. -/
namespace RpcWire

/-- The mark of the compact encoding begins neither a version word nor a length. -/
theorem Binary.mark_begins_no_word (second third fourth : UInt8) :
    (UInt32.ofNat (Bytes.toNat [Compact.mark, second, third, fourth])).toInt32 < 0 ∧
      UInt32.ofNat (Bytes.toNat [Compact.mark, second, third, fourth]) &&& versionMask ≠ version := by
  have hsecond := second.toNat_lt
  have hthird := third.toNat_lt
  have hfourth := fourth.toNat_lt
  have hspelled : Bytes.toNat [Compact.mark, second, third, fourth] =
      0x82 * 2 ^ 24 + (second.toNat * 2 ^ 16 + third.toNat * 2 ^ 8 + fourth.toNat) := by
    have hmark : Compact.mark.toNat = 0x82 := rfl
    simp only [Bytes.toNat, List.foldl_cons, List.foldl_nil, hmark]
    omega
  generalize Bytes.toNat [Compact.mark, second, third, fourth] = n at hspelled ⊢
  -- The top bit of the mark makes the word negative, and the other bits of the mark are not those of a version word.
  have hword : (UInt32.ofNat n).toNat = n := UInt32.toNat_ofNat_of_lt' (show n < 2 ^ 32 by omega)
  constructor
  · have hsign : 2 ^ 32 ≤ 2 * (UInt32.ofNat n).toNat := by omega
    exact Int32.lt_iff_toInt_lt.mpr (BitVec.toInt_neg_iff.mpr hsign)
  · intro h
    have htop := congrArg (fun word : UInt32 => word.toNat >>> 24) h
    have hfirst : n >>> 24 = 0x82 := by
      rw [Nat.shiftRight_eq_div_pow]
      omega
    simp only [UInt32.toNat_and, Nat.shiftRight_and_distrib, hword, hfirst] at htop
    exact absurd htop (by decide)

/-- What is read off a channel comes from the octets in front. -/
theorem Endpoint.consumes_of_onChannel {κ α : Type} {n : Nat} {f : Bytes → α} {codec : κ} {channel : Channel}
    {value : α} {after : Endpoint κ}
    (h : onChannel (do return f (← Channel.read n)) ⟨codec, channel⟩ = .ok value after) :
    ∃ bytes last, bytes.length = n ∧ value = f bytes ∧ after = ⟨codec, last⟩ ∧ channel.Consumes bytes last := by
  rcases Channel.read_consumes n channel with ⟨bytes, last, hread, hlength, hconsumes⟩ | ⟨err, last, hread, -⟩
  · cases h.symm.trans (onPart_ok (bind_of_ok hread))
    exact ⟨bytes, last, hlength, rfl, rfl, hconsumes⟩
  · cases h.symm.trans (onPart_error (bind_of_error hread))

/-- A message of the binary encoding does not begin as one of the compact encoding does. -/
theorem Binary.first_of_messageBegin {codec : Binary} {channel : Channel} {header : MessageHeader}
    {after : Endpoint Binary} (h : readMessageBegin ⟨codec, channel⟩ = .ok header after) :
    ∃ first second rest, channel.unread = first :: second :: rest ∧ first ≠ Compact.mark := by
  obtain ⟨word, middle, hword, hrest⟩ := ok_of_bind_ok h
  obtain ⟨n, _, hn, hpure⟩ := ok_of_bind_ok hword
  cases hpure
  obtain ⟨bytes, last, hlength, rfl, rfl, hconsumes⟩ := Endpoint.consumes_of_onChannel hn
  match bytes, hlength with
  | [first, second, third, fourth], _ =>
    refine ⟨first, second, _, hconsumes.unread, ?_⟩
    rintro rfl
    obtain ⟨hsign, hversion⟩ := mark_begins_no_word second third fourth
    rw [bind_of_ok (get_ok _), if_pos hsign, UInt32.toUInt32_toInt32, if_pos hversion] at hrest
    cases hrest

/-- A message of the compact encoding begins with its mark and with a version that is known. -/
theorem Compact.first_of_messageBegin {codec : Compact} {channel : Channel} {header : MessageHeader}
    {after : Endpoint Compact} (h : readMessageBegin ⟨codec, channel⟩ = .ok header after) :
    ∃ second rest version, channel.unread = mark :: second :: rest ∧
      CompactVersion.ofByte? (second &&& versionMask) = some version := by
  obtain ⟨first, middle, hfirst, hrest⟩ := ok_of_bind_ok h
  obtain ⟨bytes, channel', hlength, hvalue, rfl, hconsumes⟩ := Endpoint.consumes_of_onChannel hfirst
  obtain ⟨byte, rfl⟩ := List.length_eq_one_iff.mp hlength
  obtain rfl : first = byte := hvalue
  by_cases hmark : first ≠ mark
  · rw [if_pos hmark] at hrest
    cases hrest
  · rw [if_neg hmark] at hrest
    obtain ⟨second, middle, hsecond, hrest⟩ := ok_of_bind_ok hrest
    obtain ⟨bytes, last, hlength, hvalue, rfl, hconsumes'⟩ := Endpoint.consumes_of_onChannel hsecond
    obtain ⟨byte, rfl⟩ := List.length_eq_one_iff.mp hlength
    obtain rfl : second = byte := hvalue
    cases hversion : CompactVersion.ofByte? (second &&& versionMask) with
    | none =>
      rw [hversion] at hrest
      cases hrest
    | some version =>
      rw [not_not.mp hmark] at hconsumes
      exact ⟨second, last.unread, version, (hconsumes.trans hconsumes').unread, hversion⟩

/-- Where a codec reads the head of a message, two octets at least are unread, and they tell its encoding. -/
theorem WireM.detect_of_messageBegin {codec : Codec} {channel : Channel} {header : MessageHeader}
    {after : Endpoint Codec} (h : readMessageBegin ⟨codec, channel⟩ = .ok header after) :
    ∃ first second rest, channel.unread = first :: second :: rest ∧
      Session.detect first second = .ok codec.encoding := by
  cases codec with
  | binary codec =>
    simp only [readMessageBegin, dispatch] at h
    obtain ⟨_, hhead, -⟩ := ok_of_onPart_ok h
    obtain ⟨first, second, rest, hunread, hmark⟩ := Binary.first_of_messageBegin hhead
    exact ⟨first, second, rest, hunread, if_neg hmark⟩
  | compact codec =>
    simp only [readMessageBegin, dispatch] at h
    obtain ⟨_, hhead, -⟩ := ok_of_onPart_ok h
    obtain ⟨second, rest, version, hunread, hversion⟩ := Compact.first_of_messageBegin hhead
    refine ⟨Compact.mark, second, rest, hunread, ?_⟩
    rw [Session.detect, if_pos rfl, hversion]
    rfl

/-- Of codecs that differ in the version of the compact encoding at most, one reads the head of a message as the other
does. -/
theorem WireM.draws_messageBegin {codec codec' : Codec} (h : codec.Twin codec') :
    Draws codec codec' readMessageBegin 2 fun _ final final' => final = final' := by
  have hcompact (codec : Compact) (version : CompactVersion) :
      Draws (.compact codec) (.compact { codec with version }) readMessageBegin 2
        fun _ final final' => final = final' := by
    refine (@Compact.draws_messageBegin codec { codec with version } rfl).compact _ ?_
    rintro _ _ _ ⟨version, rfl, rfl⟩
    rfl
  cases h with
  | versions codec version => exact hcompact codec version
  | same codec =>
    cases codec with
    | binary codec =>
      exact (Binary.takes_messageBegin.less (by decide)).binary _ fun _ _ _ h => congrArg _ (h.1.trans h.2.symm)
    | compact codec => exact hcompact codec codec.version

private theorem WireM.encoding_of_messageBegin {codec : Codec} {channel : Channel} {header : MessageHeader}
    {after : Endpoint Codec} (h : readMessageBegin ⟨codec, channel⟩ = .ok header after) :
    after.codec.encoding = codec.encoding := by
  cases codec with
  | binary codec =>
    simp only [readMessageBegin, dispatch] at h
    obtain ⟨_, -, rfl⟩ := ok_of_onPart_ok h
    rfl
  | compact codec =>
    simp only [readMessageBegin, dispatch] at h
    obtain ⟨_, -, rfl⟩ := ok_of_onPart_ok h
    rfl

private theorem Transport.eq_raw {transport : Transport} (h : transport.kind = .raw) :
    ∃ stream, transport = .raw stream := by
  cases transport with
  | raw stream => exact ⟨stream, rfl⟩
  | framed layer => cases h
  | header layer => cases h

/-- What was read once is read again wherever the same octets are unread. -/
theorem Draws.again {κ α : Type} {codec codec' final : κ} {act : CodecM κ α} {least : Nat} {mid : α → κ → κ → Prop}
    (h : Draws codec codec' act least mid) {channel channel' last : Channel} {value : α} {stream : Stream}
    (hact : act ⟨codec, channel⟩ = .ok value ⟨final, last⟩) (hraw : channel'.transport = .raw stream)
    (hunread : channel'.unread = channel.unread) : ∃ final' last',
      act ⟨codec', channel'⟩ = .ok value ⟨final', last'⟩ ∧ mid value final final' ∧ last'.unread = last.unread := by
  obtain ⟨taken, last', hconsumes, ⟨value', final', ending, hrun, -, hmid, hreads⟩ | ⟨err, final', hrun⟩⟩ := h channel
  · cases hact.symm.trans hrun
    have hholds := Channel.holds_unread hraw
    rw [hunread, hconsumes.unread] at hholds
    obtain ⟨there, hagain, hthere⟩ := hreads hholds
    exact ⟨ending, there, hagain, hmid, by rw [hthere.unread_raw hraw, List.append_nil]⟩
  · cases hact.symm.trans hrun

namespace Session

/-- Every encoding that is detected has a codec. -/
theorem exists_codec_of_detect {config : SessionConfig} {first second : UInt8} {encoding : Encoding}
    (h : detect first second = .ok encoding) : ∃ codec, config.codec? encoding = .ok codec := by
  unfold detect at h
  split at h
  · split at h <;> cases h
    exact ⟨_, rfl⟩
  · cases h
    exact ⟨_, rfl⟩

variable {config : SessionConfig} {session after : Session} {stream : Stream} {header : MessageHeader}

/-- Where a session changes to a codec, the codec has the settings and speaks the encoding. -/
theorem switchTo_keeps {encoding : Encoding} (h : session.Configured config)
    (hok : switchTo encoding session = .ok () after) :
    ∃ codec, after = { session with endpoint := { session.endpoint with codec } } ∧ codec.Suits config ∧
      codec.encoding = encoding := by
  rcases switchTo_eq encoding h.config_eq h.suits with ⟨err, -, hswitch⟩ | ⟨_, codec, -, hsuits, hencoding, hswitch⟩
  · cases hok.symm.trans hswitch
  · cases hok.symm.trans hswitch
    exact ⟨codec, rfl, hsuits, hencoding⟩

/-- Over a bare stream, the two octets in front decide. -/
theorem negotiateRead_raw (hauto : session.config.autoDetect = true) (hraw : session.transport = .raw stream) :
    negotiateRead session = match Channel.peek 2 session.endpoint.channel with
      | .error err channel => .error err { session with endpoint := { session.endpoint with channel } }
      | .ok start channel => match detect (start.getD 0 0) (start.getD 1 0) with
        | .error err => .error err { session with endpoint := { session.endpoint with channel } }
        | .ok encoding => switchTo encoding { session with endpoint := { session.endpoint with channel } } := by
  rw [negotiateRead_eq (by rw [hraw]; exact nofun), if_pos hauto]
  cases hpeek : Channel.peek 2 session.endpoint.channel with
  | error err channel =>
    refine bind_of_error ?_
    simp only [onChannel, onWire, Endpoint.onChannel, onPart, hpeek]
  | ok start channel =>
    refine (bind_of_ok (onChannel_ok hpeek)).trans ?_
    dsimp only
    cases detect (start.getD 0 0) (start.getD 1 0) <;> rfl

/-- Finding out the encoding consumes nothing. -/
theorem negotiateRead_keeps (h : session.Configured config) (hauto : session.config.autoDetect = true)
    (hraw : session.transport = .raw stream) (hok : negotiateRead session = .ok () after) :
    after.Configured config ∧ after.endpoint.channel.unread = session.endpoint.channel.unread := by
  rw [negotiateRead_raw hauto hraw, Channel.peek] at hok
  obtain ⟨transport, readAhead, hunread, ⟨hfill, -⟩ | ⟨err, hfill⟩⟩ := Channel.fill_unread 2 session.endpoint.channel
  · rw [bind_of_ok hfill, bind_of_ok (get_ok _)] at hok
    cases hdetect : detect ((readAhead.take 2).getD 0 0) ((readAhead.take 2).getD 1 0) with
    | error err =>
      simp only [pure, EStateM.pure, hdetect] at hok
      cases hok
    | ok encoding =>
      simp only [pure, EStateM.pure, hdetect] at hok
      have hmiddle : Configured config { session with endpoint := { session.endpoint with
          channel := { session.endpoint.channel with transport, readAhead } } } := ⟨h.config_eq, h.suits⟩
      obtain ⟨codec, rfl, hsuits, -⟩ := switchTo_keeps hmiddle hok
      exact ⟨⟨h.config_eq, hsuits⟩, hunread⟩
  · rw [bind_of_error hfill] at hok
    cases hok

/-- Where two octets tell an encoding, the session changes to it. -/
theorem negotiateRead_detects {first second : UInt8} {rest : Bytes} {encoding : Encoding}
    (h : session.Configured config) (hauto : session.config.autoDetect = true) (hraw : session.transport = .raw stream)
    (hunread : session.endpoint.channel.unread = first :: second :: rest)
    (hdetect : detect first second = .ok encoding) :
    ∃ chosen, negotiateRead session = .ok () chosen ∧ chosen.encoding = encoding ∧ chosen.transport.kind = .raw := by
  have hlength : 2 ≤ session.endpoint.channel.unread.length := by
    rw [hunread]
    exact Nat.le_add_left 2 _
  obtain ⟨channel, hpeek, hholds⟩ := (Channel.holds_unread hraw).peek hlength
  have hkind : channel.transport.kind = .raw := hholds.kind.trans (congrArg Transport.kind hraw)
  rw [hunread] at hpeek
  let middle : Session := { session with endpoint := { session.endpoint with channel } }
  have hnegotiate : negotiateRead session = switchTo encoding middle := by
    rw [negotiateRead_raw hauto hraw, hpeek]
    change (match detect first second with
      | .error err => EStateM.Result.error err middle
      | .ok encoding => switchTo encoding middle) = _
    rw [hdetect]
  obtain ⟨fresh, hfresh⟩ := @exists_codec_of_detect config _ _ _ hdetect
  rcases switchTo_eq encoding (show middle.config = config from h.config_eq) h.suits with
    ⟨err, hnone, -⟩ | ⟨_, codec, -, -, hencoding, hswitch⟩
  · cases hfresh.symm.trans hnone
  · exact ⟨_, hnegotiate.trans hswitch, hencoding, hkind⟩

end Session

structure Codec.Fresh (config : SessionConfig) (codec : Codec) : Prop where
  suits : codec.Suits config
  reset : codec.reset = codec

private theorem Channel.unread_bare (stream : Stream) :
    ({ transport := .raw stream } : Channel).unread = stream.unread :=
  unread_raw rfl

namespace SessionConfig

def binary (config : SessionConfig) : Codec := .binary { strict := config.strictRead, limits := config.limits }

def compact (config : SessionConfig) (version : CompactVersion) : Codec := .compact { version, limits := config.limits }

private theorem fresh_binary (config : SessionConfig) : config.binary.Fresh config := ⟨rfl, rfl⟩

private theorem fresh_compact (config : SessionConfig) (version : CompactVersion) :
    (config.compact version).Fresh config :=
  ⟨rfl, rfl⟩

end SessionConfig

namespace Codec

def ReadsHead (codec : Codec) (stream : Stream) (header : MessageHeader) (final : Codec) (rest : Bytes) : Prop :=
  ∃ last, WireM.readMessageBegin ⟨codec, { transport := .raw stream }⟩ = .ok header ⟨final, last⟩ ∧ last.unread = rest

def Accepts (codec : Codec) (stream : Stream) (header : MessageHeader) : Prop :=
  ∃ final rest, codec.ReadsHead stream header final rest

/-- Two codecs that read a head from the same octets speak one encoding, whatever their settings and their memory. -/
theorem encoding_of_accepts {codec codec' : Codec} {stream : Stream} {header header' : MessageHeader}
    (h : codec.Accepts stream header) (h' : codec'.Accepts stream header') : codec.encoding = codec'.encoding := by
  obtain ⟨_, _, _, hhead, -⟩ := h
  obtain ⟨_, _, _, hhead', -⟩ := h'
  obtain ⟨first, second, rest, hunread, hdetect⟩ := WireM.detect_of_messageBegin hhead
  obtain ⟨first', second', rest', hunread', hdetect'⟩ := WireM.detect_of_messageBegin hhead'
  cases hunread.symm.trans hunread'
  exact Except.ok.inj (hdetect.symm.trans hdetect')

end Codec

namespace Session
variable {config : SessionConfig} {session after : Session} {stream plain : Stream} {header : MessageHeader}
  {fresh : Codec}

private theorem readHead_of_negotiated {chosen : Session} (h : negotiateRead session = .ok () chosen) :
    readHead session = match WireM.readMessageBegin ⟨chosen.endpoint.codec.reset, chosen.endpoint.channel⟩ with
      | .ok header endpoint => .ok header { chosen with endpoint }
      | .error err endpoint => .error err { chosen with endpoint } := by
  let fresh : Session := { chosen with endpoint := { chosen.endpoint with codec := chosen.endpoint.codec.reset } }
  have hreset : resetCodec chosen = .ok () fresh := rfl
  rw [readHead, bind_of_ok h, bind_of_ok hreset]
  cases hhead : WireM.readMessageBegin fresh.endpoint with
  | ok header endpoint => exact onPart_ok hhead
  | error err endpoint => exact onPart_error hhead

/-- What a session reads, a fresh codec of the encoding that it has then reads. -/
theorem readsHead_of_readHead (h : session.Configured config) (hauto : session.config.autoDetect = true)
    (hraw : session.transport = .raw stream) (hplain : plain.unread = session.endpoint.channel.unread)
    (hok : readHead session = .ok header after) (hfresh : fresh.Fresh config)
    (hencoding : fresh.encoding = after.encoding) :
    fresh.ReadsHead plain header after.endpoint.codec after.endpoint.channel.unread := by
  obtain ⟨_, chosen, hnegotiate, -⟩ := ok_of_bind_ok hok
  obtain ⟨hchosen, hunread⟩ := negotiateRead_keeps h hauto hraw hnegotiate
  rw [readHead_of_negotiated hnegotiate] at hok
  cases hhead : WireM.readMessageBegin ⟨chosen.endpoint.codec.reset, chosen.endpoint.channel⟩ with
  | error err endpoint =>
    rw [hhead] at hok
    cases hok
  | ok value endpoint =>
    rw [hhead] at hok
    cases hok
    have hsame : chosen.endpoint.codec.encoding = fresh.encoding := by
      rw [hencoding, ← Codec.encoding_reset]
      exact (WireM.encoding_of_messageBegin hhead).symm
    have htwin := Codec.twin_reset hchosen.suits hfresh.suits hsame
    rw [hfresh.reset] at htwin
    obtain ⟨final', last', hagain, rfl, hrest⟩ := (WireM.draws_messageBegin htwin).again hhead
      (show ({ transport := .raw plain } : Channel).transport = .raw plain from rfl)
      (by rw [hunread, Channel.unread_bare, hplain])
    exact ⟨last', hagain, hrest⟩

/-- Where some codec reads a head, the session changes to its encoding. -/
theorem negotiateRead_of_accepts {codec : Codec} (h : session.Configured config)
    (hauto : session.config.autoDetect = true) (hraw : session.transport = .raw stream)
    (hplain : plain.unread = session.endpoint.channel.unread) (haccepts : codec.Accepts plain header) :
    ∃ chosen, negotiateRead session = .ok () chosen ∧ chosen.encoding = codec.encoding ∧
      chosen.transport.kind = .raw := by
  obtain ⟨_, _, _, hhead, -⟩ := haccepts
  obtain ⟨first, second, more, hbegins, hdetect⟩ := WireM.detect_of_messageBegin hhead
  rw [Channel.unread_bare, hplain] at hbegins
  exact negotiateRead_detects h hauto hraw hbegins hdetect

/-- What a fresh codec reads, the session reads. -/
theorem readHead_of_accepts (h : session.Configured config) (hauto : session.config.autoDetect = true)
    (hraw : session.transport = .raw stream) (hplain : plain.unread = session.endpoint.channel.unread)
    (hfresh : fresh.Fresh config) (haccepts : fresh.Accepts plain header) :
    ∃ after, readHead session = .ok header after := by
  obtain ⟨chosen, hnegotiate, hencoding, hkind⟩ := negotiateRead_of_accepts h hauto hraw hplain haccepts
  obtain ⟨hchosen, hunread⟩ := negotiateRead_keeps h hauto hraw hnegotiate
  obtain ⟨_, hthere⟩ := Transport.eq_raw hkind
  have htwin := Codec.twin_reset hfresh.suits hchosen.suits hencoding.symm
  rw [hfresh.reset] at htwin
  obtain ⟨_, _, _, hhead, -⟩ := haccepts
  obtain ⟨final', last', hagain, -, -⟩ := (WireM.draws_messageBegin htwin).again hhead hthere
    (by rw [hunread, Channel.unread_bare, hplain])
  exact ⟨_, by rw [readHead_of_negotiated hnegotiate, hagain]⟩

private theorem readHead_of_readMessageBegin (hok : readMessageBegin session = .ok header after) :
    readHead session = .ok header after ∧ header.kind ≠ .exception := by
  cases hhead : readHead session with
  | error err last =>
    rw [readMessageBegin_of_head_error hhead] at hok
    cases hok
  | ok value last =>
    rw [readMessageBegin_of_head hhead] at hok
    split at hok
    · split at hok <;> cases hok
    · next hkind =>
      cases hok
      exact ⟨rfl, hkind⟩

/-- A session that goes by the first two octets reads what one of the two codecs reads, whatever codec was at work
before, whatever encoding the settings name and however the octets arrive. No two codecs of different encodings read a
head from the same octets, and the session changes to the encoding of any codec that does. It gives the head of a
message that carries no fault exactly if one of the codecs with its settings reads that head and the other one does not;
then it has that codec, and has left what that codec leaves. Where it fails and the head of a fault was not read,
neither codec reads a head. -/
theorem readMessageBegin_detects (h : session.Configured config) (hauto : session.config.autoDetect = true)
    (hraw : session.transport = .raw stream) (hplain : plain.unread = session.endpoint.channel.unread)
    (version : CompactVersion) :
    (∀ (codec codec' : Codec) (header header' : MessageHeader), codec.Accepts plain header →
      codec'.Accepts plain header' → codec.encoding = codec'.encoding) ∧
    (∀ (codec : Codec) (header : MessageHeader), codec.Accepts plain header →
      ∃ chosen, negotiateRead session = .ok () chosen ∧ chosen.encoding = codec.encoding) ∧
    (∀ header, (∃ after, readMessageBegin session = .ok header after) ↔ header.kind ≠ .exception ∧
      Xor (config.binary.Accepts plain header) ((config.compact version).Accepts plain header)) ∧
    (∀ header after, readMessageBegin session = .ok header after →
      ∃ codec ∈ [config.binary, config.compact version], after.encoding = codec.encoding ∧
        codec.ReadsHead plain header after.endpoint.codec after.endpoint.channel.unread) ∧
    ∀ err after, readMessageBegin session = .error err after →
      (∃ header last, readHead session = .ok header last ∧ header.kind = .exception) ∨
      ∀ codec ∈ [config.binary, config.compact version], ∀ header, ¬codec.Accepts plain header := by
  have hfresh : ∀ codec ∈ [config.binary, config.compact version], codec.Fresh config :=
    List.forall_mem_cons.mpr ⟨config.fresh_binary, List.forall_mem_singleton.mpr (config.fresh_compact version)⟩
  have hreads (header : MessageHeader) (after : Session) (hok : readMessageBegin session = .ok header after) :
      ∃ codec ∈ [config.binary, config.compact version], after.encoding = codec.encoding ∧
        codec.ReadsHead plain header after.endpoint.codec after.endpoint.channel.unread := by
    obtain ⟨codec, hmem, hencoding⟩ : ∃ codec ∈ [config.binary, config.compact version],
        after.endpoint.codec.encoding = codec.encoding := by
      cases after.endpoint.codec with
      | binary codec => exact ⟨config.binary, .head _, rfl⟩
      | compact codec => exact ⟨config.compact version, .tail _ (.head _), rfl⟩
    exact ⟨codec, hmem, hencoding, readsHead_of_readHead h hauto hraw hplain (readHead_of_readMessageBegin hok).1
      (hfresh codec hmem) hencoding.symm⟩
  have hnotboth {header header' : MessageHeader} (hbinary : config.binary.Accepts plain header)
      (hcompact : (config.compact version).Accepts plain header') : False :=
    nomatch Codec.encoding_of_accepts hbinary hcompact
  refine ⟨fun _ _ _ _ => Codec.encoding_of_accepts, fun codec header haccepts => ?_, fun header => ⟨?_, ?_⟩, hreads,
    fun err after hfails => ?_⟩
  · obtain ⟨chosen, hnegotiate, hencoding, -⟩ := negotiateRead_of_accepts h hauto hraw hplain haccepts
    exact ⟨chosen, hnegotiate, hencoding⟩
  · rintro ⟨after, hok⟩
    obtain ⟨codec, hmem, -, hread⟩ := hreads header after hok
    have haccepts : codec.Accepts plain header := ⟨_, _, hread⟩
    refine ⟨(readHead_of_readMessageBegin hok).2, ?_⟩
    rcases List.mem_cons.mp hmem with rfl | hmem
    · exact .inl ⟨haccepts, hnotboth haccepts⟩
    · obtain rfl := List.mem_singleton.mp hmem
      exact .inr ⟨haccepts, fun hbinary => hnotboth hbinary haccepts⟩
  · rintro ⟨hkind, hone⟩
    obtain ⟨after, hok⟩ : ∃ after, readHead session = .ok header after := by
      rcases hone with ⟨hbinary, -⟩ | ⟨hcompact, -⟩
      · exact readHead_of_accepts h hauto hraw hplain config.fresh_binary hbinary
      · exact readHead_of_accepts h hauto hraw hplain (config.fresh_compact version) hcompact
    exact ⟨after, by rw [readMessageBegin_of_head hok, if_neg hkind]⟩
  · refine or_iff_not_imp_left.mpr fun hnofault codec hmem header haccepts => ?_
    obtain ⟨last, hok⟩ := readHead_of_accepts h hauto hraw hplain (hfresh codec hmem) haccepts
    have hkind : header.kind ≠ .exception := fun hkind => hnofault ⟨header, last, hok, hkind⟩
    rw [readMessageBegin_of_head hok, if_neg hkind] at hfails
    cases hfails

/-- A session in the middle of a compact message, with two octets read ahead of a binary one without a version word. -/
theorem readMessageBegin_detects_bare_name : ∃ (config : SessionConfig) (session : Session) (stream plain : Stream),
    config = { transport := .raw, encoding := .compact } ∧
    session = { config, endpoint :=
      { codec := .compact { version := .bigEndian, limits := config.limits, lastField := 9, pendingRead := some true },
        channel := { transport := .raw stream, readAhead := [0, 0] } } } ∧
    stream = { unread := [0, 1, 97, 1, 0, 0, 0, 7], chunk := some 1 } ∧
    plain = { unread := [0, 0, 0, 1, 97, 1, 0, 0, 0, 7] } ∧ session.Configured config ∧
    session.config.autoDetect = true ∧ session.transport = .raw stream ∧
    plain.unread = session.endpoint.channel.unread ∧
    (∃ after, readMessageBegin session = .ok ⟨"a", .call, 7⟩ after) ∧ config.binary.Accepts plain ⟨"a", .call, 7⟩ ∧
    ¬(config.compact .littleEndian).Accepts plain ⟨"a", .call, 7⟩ := by
  let config : SessionConfig := { transport := .raw, encoding := .compact }
  let stream : Stream := { unread := [0, 1, 97, 1, 0, 0, 0, 7], chunk := some 1 }
  let plain : Stream := { unread := [0, 0, 0, 1, 97, 1, 0, 0, 0, 7] }
  let session : Session := { config, endpoint :=
    { codec := .compact { version := .bigEndian, limits := config.limits, lastField := 9, pendingRead := some true },
      channel := { transport := .raw stream, readAhead := [0, 0] } } }
  have hconfigured : session.Configured config := ⟨rfl, rfl⟩
  have hraw : session.transport = .raw stream := rfl
  have hplain : plain.unread = session.endpoint.channel.unread := (Channel.unread_raw hraw).symm
  obtain ⟨-, -, hdetects, -⟩ := readMessageBegin_detects hconfigured rfl hraw hplain .littleEndian
  have hok : ∃ after, readMessageBegin session = .ok ⟨"a", .call, 7⟩ after := exists_ok_of_run' (by decide +kernel)
  have hbinary : config.binary.Accepts plain ⟨"a", .call, 7⟩ := by
    obtain ⟨⟨final, last⟩, hhead⟩ : ∃ after, WireM.readMessageBegin ⟨config.binary, { transport := .raw plain }⟩ =
        .ok ⟨"a", .call, 7⟩ after := exists_ok_of_run' (by decide +kernel)
    exact ⟨final, last.unread, last, hhead, rfl⟩
  obtain ⟨-, ⟨-, hcompact⟩ | ⟨-, hnone⟩⟩ := (hdetects _).mp hok
  · exact ⟨config, session, stream, plain, rfl, rfl, rfl, rfl, hconfigured, rfl, hraw, hplain, hok, hbinary, hcompact⟩
  · exact absurd hbinary hnone

end Session
end RpcWire
