import RpcWire.Proofs.Conversation
import RpcWire.Proofs.Pieces
import RpcWire.Proofs.Truncation.Input

/-! Messages that end with the stream. A session that reads a part of a message does what it would do if the message
went on, until it meets the end of the stream; so it never takes a part of a message for the whole. -/
namespace RpcWire

namespace Session

/-- The stream ends while the head of a message is read, or while its body is, or in the fault that it carries. -/
def EndsWithin (message : Message) (session : Session) : Prop :=
  match message with
  | .plain header _ =>
    (∃ err after, readMessageBegin session = .error err after ∧ err.isEof = true) ∨
      ∃ middle err after, readMessageBegin session = .ok header middle ∧
        onWire (Value.read .struct) middle = .error err after ∧ err.isEof = true
  | .fault _ _ _ => ∃ err after, readMessageBegin session = .error err after ∧ err.isEof = true

/-- Some messages are read as they were sent, and the stream ends within the one after them. -/
inductive ReceivesUntil (last : Message) : Session → List Delivery → Prop where
  | last {session : Session} (ends : session.EndsWithin last) : ReceivesUntil last session []
  | cons {session after : Session} {delivery : Delivery} {rest : List Delivery}
    (one : session.Receives delivery.message delivery.format after) (others : ReceivesUntil last after rest) :
    ReceivesUntil last session (delivery :: rest)

private theorem EndsWithin.of_error {message : Message} {session after : Session} {err : WireError}
    (h : readMessageBegin session = .error err after) (heof : err.isEof = true) : session.EndsWithin message := by
  cases message with
  | plain header fields => exact .inl ⟨err, after, h, heof⟩
  | fault name seqId answer => exact ⟨err, after, h, heof⟩

variable {config : SessionConfig} {tail : Bytes}

/-- A session goes along with one whose input goes on, up to the end of its own. -/
theorem Configured.beside_lengthen {session : Session} (h : session.Configured config) (htail : tail ≠ [])
    (hend : session.endpoint.channel.source.stream.ending = none)
    (hlacks : session.endpoint.channel.source.Lacks tail.length) :
    Beside (Transport.cut tail htail).channels config session (session.mapTransport (Transport.lengthen tail)) := by
  refine ⟨h.config_eq, h.config_eq, rfl, h.suits, session.endpoint.channel.source.available + 1, ?_⟩
  exact ⟨⟨Channel.source_lengthen tail _, hend, hlacks, Nat.lt_succ_self _⟩, rfl, rfl⟩

/-- Where the whole message would be read, the stream ends within it. -/
theorem EndsWithin.of_receives {message : Message} {format : Format} {session session' after : Session}
    {base : Channel} {htail : tail ≠ []} (hbeside : Beside (Transport.cut tail htail).channels config session session')
    (h : session'.Receives message format after) (hdone : after.Stands config base [] []) :
    session.EndsWithin message := by
  have hnever {part : Session} (hpart : Beside (Transport.cut tail htail).channels config part after) : False := by
    obtain ⟨n, hn⟩ := hpart.endpoint.near
    exact hdone.holds.not_cut htail hn.source
  have hbegin := alike_readMessageBegin hbeside
  cases message with
  | plain header fields =>
    obtain ⟨middle', hread, hbody⟩ := h
    rw [hread] at hbegin
    cases hrun : readMessageBegin session with
    | error err after =>
      rw [hrun] at hbegin
      rcases hbegin.of_error with heof | ⟨_, hother, -⟩
      · exact .of_error hrun heof
      · cases hother
    | ok header middle =>
      rw [hrun] at hbegin
      obtain ⟨rfl, hmiddle⟩ := hbegin.of_ok
      have hvalue := alike_value (.inr (Transport.sized_cut htail)) .struct hmiddle
      rw [hbody] at hvalue
      cases hrest : onWire (Value.read .struct) middle with
      | error err after =>
        rw [hrest] at hvalue
        rcases hvalue.of_error with heof | ⟨_, hother, -⟩
        · exact .inr ⟨middle, err, after, hrun, hrest, heof⟩
        · cases hother
      | ok value after =>
        rw [hrest] at hvalue
        exact (hnever hvalue.of_ok.2).elim
  | fault name seqId answer =>
    have hfault : readMessageBegin session' = .error (.fault answer) after := h
    rw [hfault] at hbegin
    cases hrun : readMessageBegin session with
    | error err after =>
      rw [hrun] at hbegin
      rcases hbegin.of_error with heof | ⟨_, hother, hpart⟩
      · exact ⟨err, after, hrun, heof⟩
      · cases hother
        exact (hnever hpart).elim
    | ok header middle =>
      rw [hrun] at hbegin
      cases hbegin

/-- The head of a message is read alike on channels that read ahead alike. -/
theorem readMessageBegin_of_fill {session : Session} {entered : Channel} (hauto : session.config.autoDetect = true)
    (hkind : session.transport.kind ≠ .header) (hentered : entered.transport.kind ≠ .header)
    (h : ∀ n, 0 < n → Channel.fill n session.endpoint.channel = Channel.fill n entered) :
    readMessageBegin session = readMessageBegin (session.mapChannel fun _ => entered) := by
  have hpeek : onChannel (Channel.peek 2) session =
      onChannel (Channel.peek 2) (session.mapChannel fun _ => entered) := by
    have hp : Channel.peek 2 session.endpoint.channel = Channel.peek 2 entered := bind_eq_of_eq (h 2 (by decide))
    simp only [onChannel, onWire, Endpoint.onChannel, onPart, mapChannel, hp]
  refine bind_eq_of_eq ?_
  have hauto' : (session.mapChannel fun _ => entered).config.autoDetect = true := hauto
  have hmoved : (session.mapChannel fun _ => entered).transport.kind ≠ .header := hentered
  rw [negotiateRead_eq hkind, if_pos hauto, negotiateRead_eq hmoved, if_pos hauto']
  exact bind_eq_of_eq hpeek

private theorem EndsWithin.of_eq {message : Message} {session session' : Session}
    (h : session'.EndsWithin message)
    (hread : readMessageBegin session = readMessageBegin session') : session.EndsWithin message := by
  cases message with
  | plain header fields => simpa only [EndsWithin, hread] using h
  | fault name seqId answer => simpa only [EndsWithin, hread] using h

/-- In front of a message that is cut short, the stream ends within it. -/
theorem Stands.endsWithin {session : Session} {base : Channel} {start : Bytes} {delivery : Delivery}
    (h : session.Stands config base [] start) (hconfigured : session.Configured config)
    (hauto : config.autoDetect = true) (hsplit : delivery.output = start ++ tail) (htail : tail ≠ [])
    (hadmitted : delivery.Admitted config) (hkind : delivery.writer.transport.kind = config.transport)
    (hfits : delivery.wrapping.Fits delivery.payload base.transport.kind base.transport.maxSize)
    (hend : base.transport.stream.ending = none) : session.EndsWithin delivery.message := by
  have hauto' : session.config.autoDetect = true := by rw [h.config_eq, hauto]
  have hne : delivery.payload ≠ [] := by
    rw [Delivery.payload, payload]
    exact List.append_ne_nil_of_left_ne_nil (Format.message_ne_nil _ _) _
  rw [delivery.spec.2.2.2] at hsplit
  rcases h.holds.ends_or_enters hsplit htail hne hfits hend with ⟨err, after, heof, hfill⟩ | ⟨entered, hfront, hfill⟩
  · exact .of_error (bind_of_error (negotiateRead_of_fill_error (.inr hauto') hfill)) heof
  · have hkinds : session.transport.kind ≠ .header ∧ entered.transport.kind ≠ .header := by
      have hwhole := hfront.whole.kind
      rw [Transport.kind_lengthen] at hwhole
      rw [hwhole, transport, h.holds.kind]
      exact ⟨hfront.kind, hfront.kind⟩
    have hmoved : (session.mapChannel fun _ => entered).Configured config := ⟨hconfigured.config_eq, hconfigured.suits⟩
    have hfaces : ((session.mapChannel fun _ => entered).mapTransport (Transport.lengthen tail)).Faces config base
        delivery.wrapping delivery.payload [] [] := by
      exact ⟨h.config_eq, h.limited, hfront.whole.faces_inside hfront.kind hfits, hfits.comes⟩
    obtain ⟨after, hreceives, hafter, -⟩ := hfaces.receives hadmitted hkind
    exact (EndsWithin.of_receives (hmoved.beside_lengthen htail hfront.ending hfront.lacks) hreceives hafter).of_eq
      (readMessageBegin_of_fill hauto' hkinds.1 hkinds.2 hfill)

private theorem Receives.configured {session after : Session} {message : Message} {format : Format}
    (h : session.Receives message format after) (hconfigured : session.Configured config) :
    after.Configured config := by
  cases message with
  | plain header fields =>
    obtain ⟨middle, hread, hbody⟩ := h
    have hmiddle := hconfigured.of_alike alike_readMessageBegin (.inl ⟨header, hread⟩)
    exact hmiddle.of_alike (alike_value (.inl fun _ h => h) .struct) (.inl ⟨_, hbody⟩)
  | fault name seqId answer => exact hconfigured.of_alike alike_readMessageBegin (.inr ⟨_, h⟩)

/-- In front of some messages and a part of another one, all but the last are read as they were sent. -/
theorem Stands.receivesUntil {deliveries : List Delivery} {last : Delivery} {start : Bytes}
    (hauto : config.autoDetect = true) (hsplit : last.output = start ++ tail) (htail : tail ≠ [])
    (hadmitted : ∀ delivery ∈ last :: deliveries, delivery.Admitted config)
    (hkind : ∀ delivery ∈ last :: deliveries, delivery.writer.transport.kind = config.transport)
    {session : Session} {base : Channel}
    (h : session.Stands config base [] (deliveries.flatMap Delivery.output ++ start))
    (hconfigured : session.Configured config) (hbase : base.transport.kind = config.transport)
    (hmax : config.transport = .raw ∨ base.transport.maxSize = config.maxFrameSize)
    (hend : base.transport.stream.ending = none) : session.ReceivesUntil last.message deliveries := by
  induction deliveries generalizing session base with
  | nil =>
    have hlast := hkind last (List.mem_singleton_self last)
    have hfits := Delivery.fits (hadmitted last (List.mem_singleton_self last)) hlast
    rw [← hbase] at hfits hmax
    exact .last (h.endsWithin hconfigured hauto hsplit htail (hadmitted last (List.mem_singleton_self last)) hlast
      (hfits.of_max hmax) hend)
  | cons delivery rest ih =>
    obtain ⟨hadmitted₁, hadmitted₂, hadmitted₃⟩ :=
      (List.forall_mem_cons.mp hadmitted).imp_right List.forall_mem_cons.mp
    obtain ⟨hkind₁, hkind₂, hkind₃⟩ := (List.forall_mem_cons.mp hkind).imp_right List.forall_mem_cons.mp
    have hfits := Delivery.fits hadmitted₂ hkind₂
    rw [← hbase] at hfits
    replace hfits := hfits.of_max (by rw [hbase]; exact hmax)
    have hholds := h.holds
    rw [List.flatMap_cons, List.append_assoc, delivery.spec.2.2.2] at hholds
    have hfaces : session.Faces config base delivery.wrapping delivery.payload []
        (rest.flatMap Delivery.output ++ start) :=
      ⟨h.config_eq, h.limited, hholds.faces_wrap hfits, hfits.comes⟩
    obtain ⟨after, hone, hafter, -⟩ := hfaces.receives hadmitted₂ hkind₂
    refine .cons hone (ih ?_ ?_ hafter (hone.configured hconfigured) ?_ ?_ ?_)
    · exact List.forall_mem_cons.mpr ⟨hadmitted₁, hadmitted₃⟩
    · exact List.forall_mem_cons.mpr ⟨hkind₁, hkind₃⟩
    · simpa using hbase
    · simpa using hmax
    · simpa using hend

theorem Configured.limited {session : Session} (h : session.Configured config) : session.Limited := by
  have hsuits := h.suits
  rw [Limited, h.config_eq]
  cases hcodec : session.endpoint.codec with
  | binary codec =>
    rw [hcodec] at hsuits
    exact congrArg Binary.limits hsuits
  | compact codec =>
    rw [hcodec] at hsuits
    exact hsuits

/-- A session that opens stands in front of all that its stream holds. -/
theorem Stands.of_open_all {stream : Stream} {session : Session} (h : ofStream? config stream = .ok session) :
    session.Stands config { transport := .ofStream config.transport stream config.maxFrameSize } [] stream.unread := by
  have hconfigured := Configured.of_open h
  obtain ⟨codec, -, rfl⟩ := eq_of_open h
  refine ⟨rfl, hconfigured.limited, .of_settled ?_⟩
  cases config.transport <;> rfl

/-- Where the output of some senders is cut short within the last message, a session reads the messages before it and
meets the end of the stream. -/
theorem receivesUntil_of_cut {deliveries : List Delivery} {last : Delivery} {start : Bytes} {chunk : Option Nat}
    {reader : Session} (hstart : start <+: last.output) (hcut : start ≠ last.output)
    (hopen : ofStream? config { unread := deliveries.flatMap Delivery.output ++ start, chunk } = .ok reader)
    (hauto : config.autoDetect = true)
    (hkind : ∀ delivery ∈ last :: deliveries, delivery.writer.transport.kind = config.transport)
    (hadmitted : ∀ delivery ∈ last :: deliveries, delivery.Admitted config) :
    reader.ReceivesUntil last.message deliveries := by
  obtain ⟨tail, hsplit⟩ := hstart
  have htail : tail ≠ [] := by
    rintro rfl
    exact hcut (by rw [← hsplit, List.append_nil])
  refine (Stands.of_open_all hopen).receivesUntil hauto hsplit.symm htail hadmitted hkind (.of_open hopen) ?_ ?_ ?_
  · exact Transport.kind_ofStream _ _ _
  · exact Transport.maxSize_ofStream _ _ _
  · exact congrArg Stream.ending (Transport.stream_ofStream _ _ _)

/-- The second of two equal messages ends within its body. -/
theorem receivesUntil_body : ∃ delivery : Delivery,
    delivery.message = .plain ⟨"Search", .call, -7⟩ [(40, .bool true), (3, .bool false)] ∧
    delivery.format = .compact .bigEndian ∧ delivery.output.length = 23 ∧
    ∃ reader,
      ofStream? {} { unread := [delivery].flatMap Delivery.output ++ delivery.output.take 20, chunk := some 3 } =
        .ok reader ∧ reader.ReceivesUntil delivery.message [delivery] := by
  have hfields {p : Value → Prop} (hstruct : ∀ fields, p (.struct fields)) (hbool : ∀ value, p (.bool value)) :
      (Value.struct [(40, .bool true), (3, .bool false)]).Throughout p := by
    refine Value.throughout_struct.mpr ⟨hstruct _, ?_⟩
    simpa using ⟨Value.throughout_of_parts (hbool true) rfl, Value.throughout_of_parts (hbool false) rfl⟩
  obtain ⟨delivery, hmessage, hwriter, houtput⟩ := Delivery.exists_of_fits
    (show (Message.plain ⟨"Search", .call, -7⟩ [(40, .bool true), (3, .bool false)]).WellFormed from
      ⟨by decide, by simp [Value.WellTyped, Value.FieldsWellTyped]⟩)
    (show AtRest ⟨{}, .compact { version := .bigEndian }, { transport := .ofStream .framed {} 100 }⟩ from ⟨rfl, rfl⟩)
    (by decide) (hfields (fun _ => trivial) fun _ => trivial)
    ⟨show List.length _ ≤ UInt32.toNat 100 by decide +kernel, by rintro _ ⟨⟩⟩
  have hlength : delivery.output.length = 23 := by
    rw [houtput]
    decide +kernel
  have hadmitted : delivery.Admitted {} := by
    refine ⟨?_, ?_, .inr ?_, .inr (.inl rfl)⟩
    · rw [hmessage]
      exact .inr (by decide)
    · rw [hmessage]
      exact hfields (fun _ => trivial) fun _ => trivial
    · rw [hlength]
      decide
  have hcut : delivery.output.take 20 ≠ delivery.output := by
    intro hsame
    have hlen := congrArg List.length hsame
    rw [List.length_take, hlength] at hlen
    cases hlen
  obtain ⟨reader, hopen⟩ : ∃ reader, ofStream? {}
      { unread := [delivery].flatMap Delivery.output ++ delivery.output.take 20, chunk := some 3 } = .ok reader :=
    ⟨_, rfl⟩
  refine ⟨delivery, hmessage, ?_, hlength, reader, hopen,
    receivesUntil_of_cut ⟨delivery.output.drop 20, List.take_append_drop 20 _⟩ hcut hopen rfl ?_ ?_⟩
  · rw [Delivery.format, hwriter]
    rfl
  · simp only [List.forall_mem_cons, hwriter]
    exact ⟨rfl, rfl, List.forall_mem_nil _⟩
  · simp only [List.forall_mem_cons]
    exact ⟨hadmitted, hadmitted, List.forall_mem_nil _⟩

end Session
end RpcWire
