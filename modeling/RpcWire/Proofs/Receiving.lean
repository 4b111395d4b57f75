import RpcWire.Proofs.Layout.Records
import RpcWire.Proofs.Letters
import RpcWire.Session

/-! Receiving a message: a session between two messages finds out how the next one is laid out and reads its head,
whatever codec was at work and however the octets arrive. -/
namespace RpcWire

namespace Channel

/-- Channels that read ahead alike read alike. -/
theorem read_of_fill {n : Nat} {channel channel' : Channel} (h : fill n channel = fill n channel') :
    read n channel = read n channel' :=
  bind_eq_of_eq h

end Channel

/-- A head is read alike on channels that read ahead alike. -/
theorem WireM.readMessageBegin_of_fill {codec : Codec} {channel channel' : Channel}
    (h : ∀ n, 0 < n → Channel.fill n channel = Channel.fill n channel') :
    readMessageBegin ⟨codec, channel⟩ = readMessageBegin ⟨codec, channel'⟩ := by
  have hread (n : Nat) (hn : 0 < n) := Channel.read_of_fill (h n hn)
  cases codec with
  | binary codec =>
    have hfirst : Binary.readMessageBegin ⟨codec, channel⟩ = Binary.readMessageBegin ⟨codec, channel'⟩ := by
      refine bind_eq_of_eq (bind_eq_of_eq ?_)
      have hword : Channel.readBigEndian 4 channel = Channel.readBigEndian 4 channel' :=
        bind_eq_of_eq (hread 4 (by decide))
      simp only [Endpoint.readBigEndian, Endpoint.onChannel, onPart, hword]
    simp only [readMessageBegin, dispatch, onPart, hfirst]
  | compact codec =>
    have hfirst : Compact.readMessageBegin ⟨codec, channel⟩ = Compact.readMessageBegin ⟨codec, channel'⟩ := by
      apply bind_eq_of_eq
      have hbyte : Channel.readByte channel = Channel.readByte channel' := bind_eq_of_eq (hread 1 (by decide))
      simp only [Endpoint.readByte, Endpoint.onChannel, onPart, hbyte]
    simp only [readMessageBegin, dispatch, onPart, hfirst]

namespace Channel

theorem Holds.kind {channel base : Channel} {current later : Bytes} (h : channel.Holds base current later) :
    channel.transport.kind = base.transport.kind := by
  simpa using congrArg Transport.kind h.apart.1

theorem Faces.kind {channel base : Channel} {wrapping : Wrapping} {payload current later : Bytes}
    (h : channel.Faces base wrapping payload current later) : channel.transport.kind = base.transport.kind := by
  cases wrapping with
  | envelope head => exact h.2.kind
  | bare => exact Holds.kind h
  | frame => exact Holds.kind h

theorem Holds.head? {channel base : Channel} {current later : Bytes} (h : channel.Holds base current later) :
    channel.transport.head? = base.transport.head? := by
  simpa using congrArg Transport.head? h.apart.1

/-- The next octets are seen without being consumed. -/
theorem Holds.peek {n : Nat} {channel base : Channel} {current later : Bytes}
    (h : channel.Holds base current later) (hn : n ≤ current.length) :
    ∃ after, Channel.peek n channel = .ok (current.take n) after ∧ after.Holds base current later := by
  obtain ⟨after, hf, hlen, hs⟩ := h.fill hn
  refine ⟨after, ?_, hs⟩
  rw [Channel.peek, bind_of_ok hf, ← (hs.drop hn hlen).1]
  rfl

/-- Between two messages, the first octets of the next one are seen. -/
theorem Faces.peek {n : Nat} {channel base : Channel} {wrapping : Wrapping} {payload current later : Bytes}
    (h : channel.Faces base wrapping payload current later)
    (hcomes : wrapping.Comes payload base.transport.kind base.transport.maxSize) (hpos : 0 < n)
    (hn : n ≤ payload.length) :
    ∃ after, Channel.peek n channel = .ok (payload.take n) after ∧
      after.Holds { base with transport := wrapping.tell base.transport } (payload ++ current) later := by
  obtain ⟨entered, hfill, hs⟩ := h.enter hcomes
  obtain ⟨after, hp, ha⟩ := hs.peek (n := n) (by rw [List.length_append]; omega)
  rw [List.take_append_of_le_length hn] at hp
  exact ⟨after, (bind_eq_of_eq (hfill n hpos)).trans hp, ha⟩

end Channel

/-- A codec of the encoding reads the head of a message, and takes over the version of the message. -/
theorem WireM.reads_messageBegin {codec : Codec} {format : Format} (hencoding : codec.encoding = format.encoding)
    {header : MessageHeader} (h : (Utf8.encode header.name).length ≤ Endpoint.maxSize)
    (hlimit : Endpoint.Within codec.limits.text (Utf8.encode header.name).length) :
    ∃ codec' : Codec, Reads codec readMessageBegin (format.message header) header codec' ∧ codec'.format = format ∧
      codec'.limits = codec.limits ∧ (codec.Idle → codec'.Idle) := by
  cases codec with
  | binary codec =>
    cases format with
    | binary => exact ⟨.binary codec, (codec.reads_messageBegin h hlimit).binary _, rfl, rfl, id⟩
    | compact version => cases hencoding
  | compact codec =>
    cases format with
    | binary => cases hencoding
    | compact version =>
      exact ⟨.compact { codec with version }, (codec.reads_messageBegin version h hlimit).compact _, rfl, rfl, id⟩

/-- No head is read where nothing can be read ahead. -/
theorem WireM.readMessageBegin_of_fill_error {codec : Codec} {channel after : Channel} {err : WireError}
    (h : ∀ n, 0 < n → Channel.fill n channel = .error err after) :
    readMessageBegin ⟨codec, channel⟩ = .error err ⟨codec, after⟩ := by
  have hread (n : Nat) (hn : 0 < n) : Channel.read n channel = .error err after := bind_of_error (h n hn)
  cases codec with
  | binary codec =>
    have hword : Channel.readBigEndian 4 channel = .error err after := bind_of_error (hread 4 (by decide))
    have hfirst : Endpoint.readBigEndian 4 (⟨codec, channel⟩ : Endpoint Binary) = .error err ⟨codec, after⟩ := by
      simp only [Endpoint.readBigEndian, Endpoint.onChannel, onPart, hword]
    have hhead : Binary.readMessageBegin ⟨codec, channel⟩ = .error err ⟨codec, after⟩ :=
      bind_of_error (bind_of_error hfirst)
    simp only [readMessageBegin, dispatch, onPart, hhead]
  | compact codec =>
    have hbyte : Channel.readByte channel = .error err after := bind_of_error (hread 1 (by decide))
    have hfirst : Endpoint.readByte (⟨codec, channel⟩ : Endpoint Compact) = .error err ⟨codec, after⟩ := by
      simp only [Endpoint.readByte, Endpoint.onChannel, onPart, hbyte]
    have hhead : Compact.readMessageBegin ⟨codec, channel⟩ = .error err ⟨codec, after⟩ := bind_of_error hfirst
    simp only [readMessageBegin, dispatch, onPart, hhead]

namespace Session

def Limited (session : Session) : Prop := session.endpoint.codec.limits = session.config.limits

/-- Whether the session can tell how a message is laid out: from its envelope, from its first octets or from the
settings. -/
def Tells (session : Session) (format : Format) : Wrapping → Prop
  | .envelope head => Encoding.ofWire head.encoding.toWire = format.encoding
  | _ => session.config.autoDetect = true ∨ session.config.encoding = format.encoding

private theorem switchTo_ok {session : Session} (h : session.Limited) (format : Format) :
    ∃ codec : Codec, switchTo format.encoding session =
        .ok () { session with endpoint := { session.endpoint with codec } } ∧
      codec.encoding = format.encoding ∧ codec.limits = session.config.limits := by
  by_cases hsame : session.encoding = format.encoding
  · refine ⟨session.endpoint.codec, ?_, hsame, h⟩
    rw [switchTo, bind_of_ok (get_ok session), if_pos hsame]
    rfl
  · cases format with
    | binary =>
      refine ⟨.binary { strict := session.config.strictRead, limits := session.config.limits }, ?_, rfl, rfl⟩
      rw [switchTo, bind_of_ok (get_ok session), if_neg hsame]
      rfl
    | compact version =>
      refine ⟨.compact { version := session.config.compactVersion, limits := session.config.limits }, ?_, rfl, rfl⟩
      rw [switchTo, bind_of_ok (get_ok session), if_neg hsame]
      rfl

/-- The first two octets of a message tell its encoding. -/
theorem detect_message (format : Format) (header : MessageHeader) (rest : Bytes) :
    2 ≤ (format.message header ++ rest).length ∧
      detect (((format.message header ++ rest).take 2).getD 0 0) (((format.message header ++ rest).take 2).getD 1 0) =
        .ok format.encoding := by
  cases format with
  | binary =>
    have hword : ∃ more, Bytes.bigEndian 4 (Binary.version ||| header.kind.toByte.toUInt32).toNat =
        0x80 :: 0x01 :: more := by
      cases header.kind <;> exact ⟨_, rfl⟩
    obtain ⟨more, hmore⟩ := hword
    rw [Format.message, hmore]
    exact ⟨by simp, rfl⟩
  | compact version =>
    refine ⟨by simp [Format.message], ?_⟩
    simp only [Format.message, List.cons_append, List.take_succ_cons, List.take_zero, List.getD_cons_zero,
      List.getD_cons_succ, detect, if_true, (Compact.versionByte version header.kind).1, Format.encoding]

theorem onChannel_ok {α : Type} {act : ChannelM α} {session : Session} {value : α} {after : Channel}
    (h : act session.endpoint.channel = .ok value after) :
    onChannel act session = .ok value { session with endpoint := { session.endpoint with channel := after } } := by
  simp only [onChannel, onWire, Endpoint.onChannel, onPart, h]

/-- Where there are no envelopes, the first octets or the settings tell the codec. -/
theorem negotiateRead_eq {session : Session} (h : session.transport.kind ≠ .header) :
    negotiateRead session =
      if session.config.autoDetect then
        (do
          let start ← onChannel (Channel.peek 2)
          match detect (start.getD 0 0) (start.getD 1 0) with
          | .error err => throw err
          | .ok encoding => switchTo encoding) session
      else switchTo session.config.encoding session := by
  rw [negotiateRead, bind_of_ok (get_ok session), bind_of_ok (get_ok session)]
  cases hk : session.transport.kind with
  | header => exact absurd hk h
  | raw | framed => split <;> rfl

/-- A session that looks ahead for the codec fails where nothing can be read ahead. -/
theorem negotiateRead_of_fill_error {session : Session} {channel : Channel} {err : WireError}
    (hlooks : session.transport.kind = .header ∨ session.config.autoDetect = true)
    (h : ∀ n, 0 < n → Channel.fill n session.endpoint.channel = .error err channel) :
    negotiateRead session = .error err { session with endpoint := { session.endpoint with channel } } := by
  have hpeek (n : Nat) (hn : 0 < n) : onChannel (Channel.peek n) session =
      .error err { session with endpoint := { session.endpoint with channel } } := by
    have hp : Channel.peek n session.endpoint.channel = .error err channel := bind_of_error (h n hn)
    simp only [onChannel, onWire, Endpoint.onChannel, onPart, hp]
  by_cases hheader : session.transport.kind = .header
  · rw [negotiateRead, bind_of_ok (get_ok session), bind_of_ok (get_ok session), hheader]
    exact bind_of_error (hpeek 1 (by decide))
  · rw [negotiateRead_eq hheader, if_pos (hlooks.resolve_left hheader)]
    exact bind_of_error (hpeek 2 (by decide))

/-- Where there are envelopes, the envelope of the next message tells the codec. -/
theorem negotiateRead_header {session after : Session} {start : Bytes} {head : EnvelopeHead}
    (h : session.transport.kind = .header) (hpeek : onChannel (Channel.peek 1) session = .ok start after)
    (hhead : after.transport.head? = some head) : negotiateRead session = switchTo head.encoding after := by
  rw [negotiateRead, bind_of_ok (get_ok session), bind_of_ok (get_ok session), h]
  refine (bind_of_ok hpeek).trans ((bind_of_ok (get_ok after)).trans ?_)
  rw [hhead]

/-- Between two messages, the codec of the next one is found. -/
theorem negotiateRead_front {session : Session} {base : Channel} {wrapping : Wrapping} {format : Format}
    {header : MessageHeader} {body current later : Bytes} (hlimited : session.Limited)
    (h : session.endpoint.channel.Faces base wrapping (format.message header ++ body) current later)
    (hcomes : wrapping.Comes (format.message header ++ body) base.transport.kind base.transport.maxSize)
    (htells : session.Tells format wrapping) :
    ∃ (codec : Codec) (channel entered : Channel),
      negotiateRead session = .ok () { session with endpoint := ⟨codec, channel⟩ } ∧
      (∀ n, 0 < n → Channel.fill n channel = Channel.fill n entered) ∧
      entered.Holds { base with transport := wrapping.tell base.transport }
        (format.message header ++ body ++ current) later ∧
      codec.encoding = format.encoding ∧ codec.limits = session.config.limits := by
  obtain ⟨hlen, hdetect⟩ := detect_message format header body
  have hkind : session.transport.kind = base.transport.kind := h.kind
  by_cases hheader : base.transport.kind = .header
  · obtain ⟨layer, hb⟩ : ∃ layer, base.transport = .header layer := by
      cases hb : base.transport with
      | header layer => exact ⟨layer, rfl⟩
      | raw stream => rw [hb] at hheader; cases hheader
      | framed layer => rw [hb] at hheader; cases hheader
    obtain ⟨head, rfl⟩ : ∃ head, wrapping = .envelope head := by
      cases wrapping with
      | envelope head => exact ⟨head, rfl⟩
      | bare => rw [hheader] at hcomes; exact hcomes.elim
      | frame => rw [hheader] at hcomes; exact hcomes.elim
    obtain ⟨channel, hpeek, hs⟩ := h.peek hcomes (by decide : 0 < 1) (by omega)
    have hhead : channel.transport.head? = some (head.taking layer.head) := by
      rw [hs.head?, hb]
      rfl
    have hlimited' : Limited { session with endpoint := { session.endpoint with channel } } := hlimited
    obtain ⟨codec, hswitch, hencoding, hlimits⟩ := switchTo_ok hlimited' format
    refine ⟨codec, channel, channel, ?_, fun _ _ => rfl, hs, hencoding, hlimits⟩
    rw [negotiateRead_header (hkind.trans hheader) (onChannel_ok hpeek) hhead]
    have htold : (head.taking layer.head).encoding = format.encoding := htells
    rw [htold, hswitch]
  · have htells' : session.config.autoDetect = true ∨ session.config.encoding = format.encoding := by
      cases wrapping with
      | envelope head =>
        cases hk : base.transport.kind with
        | header => exact absurd hk hheader
        | raw => rw [hk] at hcomes; exact hcomes.elim
        | framed => rw [hk] at hcomes; exact hcomes.elim
      | bare => exact htells
      | frame => exact htells
    rw [negotiateRead_eq (by rw [hkind]; exact hheader)]
    by_cases hauto : session.config.autoDetect = true
    · obtain ⟨channel, hpeek, hs⟩ := h.peek hcomes (by decide : 0 < 2) hlen
      have hlimited' : Limited { session with endpoint := { session.endpoint with channel } } := hlimited
      obtain ⟨codec, hswitch, hencoding, hlimits⟩ := switchTo_ok hlimited' format
      refine ⟨codec, channel, channel, ?_, fun _ _ => rfl, hs, hencoding, hlimits⟩
      rw [if_pos hauto, bind_of_ok (onChannel_ok hpeek), hdetect]
      exact hswitch
    · obtain ⟨entered, hfill, hs⟩ := h.enter hcomes
      obtain ⟨codec, hswitch, hencoding, hlimits⟩ := switchTo_ok hlimited format
      refine ⟨codec, session.endpoint.channel, entered, ?_, hfill, hs, hencoding, hlimits⟩
      rw [if_neg hauto, htells'.resolve_left hauto, hswitch]

structure Stands (session : Session) (config : SessionConfig) (base : Channel) (current later : Bytes) : Prop where
  config_eq : session.config = config
  limited : session.Limited
  holds : session.endpoint.channel.Holds base current later

structure Faces (session : Session) (config : SessionConfig) (base : Channel) (wrapping : Wrapping)
    (payload current later : Bytes) : Prop where
  config_eq : session.config = config
  limited : session.Limited
  faces : session.endpoint.channel.Faces base wrapping payload current later
  comes : wrapping.Comes payload base.transport.kind base.transport.maxSize

/-- A session in front of some letters faces the first of them. -/
theorem Stands.faces {session : Session} {config : SessionConfig} {base : Channel} {letter : Letter}
    {rest : List Letter}
    (h : session.Stands config base (Letter.front (letter :: rest) config.transport)
      (Letter.behind (letter :: rest) config.transport))
    (hkind : base.transport.kind = config.transport)
    (hcomes : letter.wrapping.Comes letter.payload config.transport base.transport.maxSize) :
    session.Faces config base letter.wrapping letter.payload (Letter.front rest config.transport)
      (Letter.behind rest config.transport) :=
  ⟨h.config_eq, h.limited, h.holds.faces hcomes, by rw [hkind]; exact hcomes⟩

/-- A session that opens stands in front of the letters that its stream carries. -/
theorem Stands.of_open {config : SessionConfig} {stream : Stream} {session : Session} {letters : List Letter}
    (h : ofStream? config stream = .ok session)
    (hcarried : Letter.Carried letters config.maxFrameSize stream.unread config.transport) :
    session.Stands config { transport := .ofStream config.transport stream config.maxFrameSize }
        (Letter.front letters config.transport) (Letter.behind letters config.transport) ∧
      ∃ format : Format, config.encoding = format.encoding := by
  obtain ⟨codec, hcodec, rfl⟩ := eq_of_open h
  have hholds := Channel.holds_of_carried hcarried
  cases he : config.encoding with
  | binary =>
    rw [he] at hcodec
    cases hcodec
    exact ⟨⟨rfl, rfl, hholds⟩, .binary, rfl⟩
  | compact =>
    rw [he] at hcodec
    cases hcodec
    exact ⟨⟨rfl, rfl, hholds⟩, .compact config.compactVersion, rfl⟩
  | json | reserved =>
    rw [he] at hcodec
    cases hcodec

/-- What a codec reads, its session reads. -/
theorem Stands.reads {α : Type} {session : Session} {config : SessionConfig} {base : Channel}
    {bytes rest later : Bytes} {act : WireM α} {value : α} {codec' : Codec}
    (h : session.Stands config base (bytes ++ rest) later)
    (hread : Reads session.endpoint.codec act bytes value codec')
    (hlimits : codec'.limits = session.endpoint.codec.limits) :
    ∃ after, onWire act session = .ok value after ∧ after.Stands config base rest later ∧
      after.endpoint.codec = codec' := by
  obtain ⟨channel, hact, hs⟩ := hread h.holds
  refine ⟨{ session with endpoint := ⟨codec', channel⟩ }, ?_, ⟨h.config_eq, hlimits.trans h.limited, hs⟩, rfl⟩
  simp only [onWire, onPart, hact]

/-- Between two messages, the head of the next one is read, whatever codec was at work. -/
theorem Faces.reads_head {session : Session} {config : SessionConfig} {base : Channel} {wrapping : Wrapping}
    {format : Format} {header : MessageHeader} {body current later : Bytes}
    (h : session.Faces config base wrapping (format.message header ++ body) current later)
    (htells : session.Tells format wrapping) (hname : (Utf8.encode header.name).length ≤ Endpoint.maxSize)
    (hlimit : Endpoint.Within config.limits.text (Utf8.encode header.name).length) :
    ∃ after, (do negotiateRead; resetCodec; onWire WireM.readMessageBegin) session = .ok header after ∧
      after.Stands config { base with transport := wrapping.tell base.transport } (body ++ current) later ∧
      after.endpoint.codec.format = format ∧ after.endpoint.codec.Idle := by
  obtain ⟨codec, channel, entered, hnegotiate, hfill, hs, hencoding, hlimits⟩ :=
    negotiateRead_front h.limited h.faces h.comes htells
  rw [h.config_eq] at hlimits
  have hreset : codec.reset.encoding = format.encoding := by
    rw [← hencoding]
    cases codec <;> rfl
  obtain ⟨codec', hread, hformat, hlimits', hidle⟩ :=
    WireM.reads_messageBegin hreset hname (by rw [Codec.limits_reset, hlimits]; exact hlimit)
  rw [List.append_assoc] at hs
  obtain ⟨after, hact, hafter⟩ := hread hs
  rw [← WireM.readMessageBegin_of_fill hfill] at hact
  refine ⟨{ session with endpoint := ⟨codec', after⟩ }, ?_, ⟨h.config_eq, ?_, hafter⟩, hformat,
    hidle codec.idle_reset⟩
  · refine (bind_of_ok hnegotiate).trans ((bind_of_ok rfl).trans ?_)
    simp only [onWire, onPart, hact]
  · rw [Limited, hlimits', Codec.limits_reset, hlimits, h.config_eq]

/-- Once the head is read, its kind decides what follows. -/
theorem readMessageBegin_eq : Session.readMessageBegin =
    (do negotiateRead; resetCodec; onWire WireM.readMessageBegin) >>= fun header => do
      if header.kind = .exception then
        throw (.fault (← onWire (Fault.read (← get).config.recursionLimit)))
      return header := by
  simp only [Session.readMessageBegin, bind_assoc]

/-- The head of a message that carries no fault is read. -/
theorem Faces.readMessageBegin {session : Session} {config : SessionConfig} {base : Channel} {wrapping : Wrapping}
    {format : Format} {header : MessageHeader} {body current later : Bytes}
    (h : session.Faces config base wrapping (format.message header ++ body) current later)
    (htells : session.Tells format wrapping) (hname : (Utf8.encode header.name).length ≤ Endpoint.maxSize)
    (hlimit : Endpoint.Within config.limits.text (Utf8.encode header.name).length)
    (hkind : header.kind ≠ .exception) :
    ∃ after, Session.readMessageBegin session = .ok header after ∧
      after.Stands config { base with transport := wrapping.tell base.transport } (body ++ current) later ∧
      after.endpoint.codec.format = format ∧ after.endpoint.codec.Idle := by
  obtain ⟨after, hhead, hafter⟩ := h.reads_head htells hname hlimit
  refine ⟨after, ?_, hafter⟩
  rw [readMessageBegin_eq, bind_of_ok hhead, if_neg hkind]
  rfl

/-- A message that carries a fault is read whole, and fails with the fault. -/
theorem Faces.readMessageBegin_fault {session : Session} {config : SessionConfig} {base : Channel}
    {wrapping : Wrapping} {format : Format} {header : MessageHeader} {fault : Fault} {current later : Bytes}
    (h : session.Faces config base wrapping (format.message header ++ format.value fault.toValue) current later)
    (htells : session.Tells format wrapping) (hname : (Utf8.encode header.name).length ≤ Endpoint.maxSize)
    (hlimit : Endpoint.Within config.limits.text (Utf8.encode header.name).length)
    (hkind : header.kind = .exception) (hlegible : fault.toValue.Legible format config.limits) :
    ∃ after, Session.readMessageBegin session = .error (.fault fault) after ∧
      after.Stands config { base with transport := wrapping.tell base.transport } current later ∧
      after.endpoint.codec.format = format ∧ after.endpoint.codec.Idle := by
  obtain ⟨middle, hhead, hmiddle, hformat, hidle⟩ := h.reads_head htells hname hlimit
  have hlimits : middle.endpoint.codec.limits = config.limits := by rw [hmiddle.limited, hmiddle.config_eq]
  rw [← hformat] at hmiddle
  obtain ⟨after, hfault, hafter, hcodec⟩ := hmiddle.reads
    (Fault.reads_read hidle (by rw [hformat, hlimits]; exact hlegible) middle.config.recursionLimit) rfl
  refine ⟨after, ?_, hafter, by rw [hcodec, hformat], by rw [hcodec]; exact hidle⟩
  rw [readMessageBegin_eq, bind_of_ok hhead, if_pos hkind]
  exact (bind_of_ok rfl).trans ((bind_of_ok hfault).trans rfl)

/-- At the end of the stream no message begins, and nothing is left. -/
theorem Stands.readMessageBegin_end {session : Session} {config : SessionConfig} {base : Channel}
    (h : session.Stands config base [] []) (hend : base.transport.stream.ending = none) {format : Format}
    (hencoding : config.encoding = format.encoding) :
    ∃ after, Session.readMessageBegin session = .error .streamClosed after ∧
      after.endpoint.channel.settled = base.holding [] [] := by
  obtain ⟨channel, hfill, hsettled⟩ := h.holds.fill_end hend
  by_cases hlooks : session.transport.kind = .header ∨ session.config.autoDetect = true
  · exact ⟨_, bind_of_error (negotiateRead_of_fill_error hlooks hfill), hsettled⟩
  · obtain ⟨hheader, hauto⟩ := not_or.mp hlooks
    obtain ⟨codec, hswitch, -, -⟩ := switchTo_ok h.limited format
    have hnegotiate : negotiateRead session =
        .ok () { session with endpoint := { session.endpoint with codec } } := by
      have hset : session.config.encoding = format.encoding := by rw [h.config_eq, hencoding]
      rw [negotiateRead_eq hheader, if_neg hauto, hset, hswitch]
    have hhead : WireM.readMessageBegin ⟨codec.reset, _⟩ = _ := WireM.readMessageBegin_of_fill_error hfill
    refine ⟨{ session with endpoint := ⟨codec.reset, channel⟩ }, ?_, hsettled⟩
    refine (bind_of_ok hnegotiate).trans ((bind_of_ok rfl).trans (bind_of_error ?_))
    simp only [onWire, onPart, hhead]

end Session
end RpcWire
