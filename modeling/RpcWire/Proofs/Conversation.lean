import RpcWire.Proofs.Receiving
import RpcWire.Proofs.Sending

/-! Messages sent by any sessions over one kind of transport, read back by one session: it makes of each what was
sent, in the order sent, and then finds the end of the stream. -/
namespace RpcWire

inductive Message where
  | plain (header : MessageHeader) (fields : List (Int16 × Value))
  | fault (name : String) (seqId : Int32) (answer : Fault)

namespace Message

def header : Message → MessageHeader
  | .plain header _ => header
  | .fault name seqId _ => ⟨name, .exception, seqId⟩

def body : Message → Value
  | .plain _ fields => .struct fields
  | .fault _ _ answer => answer.toValue

/-- The kind of a message tells whether it carries a fault, and the items of its body have the shapes announced. -/
def WellFormed : Message → Prop
  | .plain header fields => header.kind ≠ .exception ∧ (Value.struct fields).WellTyped
  | .fault _ _ _ => True

def send : Message → SessionM Unit
  | .plain header fields => Session.send header (Value.struct fields).write
  | .fault name seqId answer => Session.send ⟨name, .exception, seqId⟩ answer.write

theorem send_eq (message : Message) : message.send = Session.send message.header message.body.write := by
  cases message with
  | plain header fields => rfl
  | fault name seqId answer => rw [send, Fault.write_eq]; rfl

end Message

/-- A message and the session that sent it, with nothing waiting to be sent before. -/
structure Delivery where
  message : Message
  wellFormed : message.WellFormed
  writer : Session
  after : Session
  atRest : writer.AtRest
  sent : message.send writer = .ok () after

namespace Delivery

def output (delivery : Delivery) : Bytes :=
  delivery.after.stream.written.drop delivery.writer.stream.written.length

def format (delivery : Delivery) : Format := delivery.writer.format

/-- Whether a reader with these settings has room for the message, and can tell how it is laid out. -/
structure Admitted (config : SessionConfig) (delivery : Delivery) : Prop where
  name : Endpoint.Within config.limits.text (Utf8.encode delivery.message.header.name).length
  body : delivery.message.body.Throughout config.limits.Admits
  size : config.transport = .raw ∨ delivery.output.length ≤ config.maxFrameSize.toNat + 4
  encoding : config.transport = .header ∨ config.autoDetect = true ∨ config.encoding = delivery.format.encoding

def payload (delivery : Delivery) : Bytes := delivery.writer.payload delivery.message.header delivery.message.body

def wrapping (delivery : Delivery) : Wrapping :=
  (delivery.writer.addressed delivery.message.header).transport.wrapping

def letter (delivery : Delivery) : Letter := ⟨delivery.wrapping, delivery.payload⟩

/-- What sending took for granted held, and the output is one frame or envelope. -/
theorem spec (delivery : Delivery) :
    (Utf8.encode delivery.message.header.name).length ≤ Endpoint.maxSize ∧
      delivery.message.body.Throughout delivery.format.Accepts ∧
      delivery.wrapping.Fits delivery.payload delivery.writer.transport.kind
        (delivery.writer.addressed delivery.message.header).transport.maxSize ∧
      delivery.output = delivery.wrapping.wrap delivery.payload := by
  have hsent := delivery.sent
  rw [Message.send_eq] at hsent
  obtain ⟨⟨⟨hname, hbody⟩, hfits, -⟩, -, hafter⟩ := (Session.send_okIff delivery.atRest).eq_of_ok hsent
  rw [Session.kind_addressed] at hfits
  refine ⟨hname, hbody, hfits, ?_⟩
  rw [output, hafter, Session.written_sent, Session.written_addressed, List.drop_left]
  rfl

/-- Whatever can be laid out and taken is delivered. -/
theorem exists_of_fits {message : Message} {writer : Session} (hwell : message.WellFormed) (hrest : writer.AtRest)
    (hname : (Utf8.encode message.header.name).length ≤ Endpoint.maxSize)
    (hbody : message.body.Throughout writer.format.Accepts)
    (hsends : (writer.addressed message.header).transport.Sends (writer.payload message.header message.body)) :
    ∃ delivery : Delivery, delivery.message = message ∧ delivery.writer = writer ∧ delivery.output =
      (writer.addressed message.header).transport.wrapping.wrap (writer.payload message.header message.body) := by
  obtain ⟨after, hsent⟩ : ∃ after, message.send writer = .ok () after := by
    rw [message.send_eq]
    exact ⟨_, (Session.send_okIff hrest).1 ⟨⟨hname, hbody⟩, hsends⟩⟩
  exact ⟨⟨message, hwell, writer, _, hrest, hsent⟩, rfl, rfl, (spec ⟨message, hwell, writer, _, hrest, hsent⟩).2.2.2⟩

theorem legible {config : SessionConfig} {delivery : Delivery} (h : delivery.Admitted config) :
    delivery.message.body.Legible delivery.format config.limits := by
  obtain ⟨-, haccepts, -, -⟩ := delivery.spec
  refine ⟨?_, haccepts.and h.body⟩
  have hwell := delivery.wellFormed
  cases hm : delivery.message with
  | plain header fields =>
    rw [hm] at hwell
    exact hwell.2
  | fault name seqId answer =>
    rw [hm] at haccepts
    exact Fault.wellTyped haccepts

/-- A reader has room for the frame or envelope. -/
theorem fits {config : SessionConfig} {delivery : Delivery} (h : delivery.Admitted config)
    (hkind : delivery.writer.transport.kind = config.transport) :
    delivery.wrapping.Fits delivery.payload config.transport config.maxFrameSize := by
  obtain ⟨-, -, hfits, houtput⟩ := delivery.spec
  rw [hkind] at hfits
  apply hfits.of_length
  rw [← houtput]
  exact h.size

/-- The output of any senders carries their messages. -/
theorem carried {config : SessionConfig} {deliveries : List Delivery}
    (hadmitted : ∀ delivery ∈ deliveries, delivery.Admitted config)
    (hkind : ∀ delivery ∈ deliveries, delivery.writer.transport.kind = config.transport) :
    Letter.Carried (deliveries.map letter) config.maxFrameSize (deliveries.flatMap output) config.transport := by
  have hfits : ∀ sent ∈ deliveries.map letter, sent.wrapping.Fits sent.payload config.transport config.maxFrameSize :=
    List.forall_mem_map.mpr fun delivery hm => fits (hadmitted delivery hm) (hkind delivery hm)
  have houtput : deliveries.flatMap output =
      (deliveries.map letter).flatMap fun sent => sent.wrapping.wrap sent.payload := by
    rw [List.flatMap_map]
    exact List.flatMap_congr fun delivery _ => delivery.spec.2.2.2
  rw [houtput]
  exact Letter.carried_of_fits hfits

/-- A reader can tell how the message is laid out. -/
theorem tells {config : SessionConfig} {delivery : Delivery} (h : delivery.Admitted config)
    (hkind : delivery.writer.transport.kind = config.transport) {session : Session}
    (hconfig : session.config = config) : session.Tells delivery.format delivery.wrapping := by
  have hkind' : config.transport = delivery.writer.endpoint.channel.transport.kind := hkind.symm
  have hwrapping : delivery.wrapping = (delivery.writer.addressed delivery.message.header).transport.wrapping := rfl
  rw [Session.addressed] at hwrapping
  have htold : ∀ {wrapping : Wrapping}, (∀ head, wrapping ≠ .envelope head) → config.transport ≠ .header →
      session.Tells delivery.format wrapping := by
    intro wrapping hnone hnot
    have hset := h.encoding.resolve_left hnot
    rw [← hconfig] at hset
    cases wrapping with
    | envelope head => exact absurd rfl (hnone head)
    | bare => exact hset
    | frame => exact hset
  cases ht : delivery.writer.endpoint.channel.transport with
  | header layer =>
    have hencoding : delivery.writer.encoding = delivery.format.encoding :=
      (Codec.encoding_format delivery.writer.endpoint.codec).symm
    simp only [Session.transport, ht, Transport.mapHead, Transport.wrapping] at hwrapping
    rw [hwrapping]
    change Encoding.ofWire delivery.writer.encoding.toWire = _
    rw [hencoding, delivery.format.ofWire_encoding]
  | raw stream =>
    simp only [Session.transport, ht, Transport.mapHead, Transport.wrapping] at hwrapping
    rw [hwrapping]
    exact htold (by rintro head ⟨⟩) (by rw [hkind', ht]; rintro ⟨⟩)
  | framed layer =>
    simp only [Session.transport, ht, Transport.mapHead, Transport.wrapping] at hwrapping
    rw [hwrapping]
    exact htold (by rintro head ⟨⟩) (by rw [hkind', ht]; rintro ⟨⟩)

end Delivery

namespace Session

/-- One message is read as it was sent: its head and its body, or a failure with the fault that it carries. -/
def Receives (session : Session) (message : Message) (format : Format) (after : Session) : Prop :=
  match message with
  | .plain header fields => ∃ middle, readMessageBegin session = .ok header middle ∧
    onWire (Value.read .struct) middle = .ok (format.image (.struct fields)) after
  | .fault _ _ answer => readMessageBegin session = .error (.fault answer) after

/-- All messages are read as they were sent, each in the codec of its writer, and nothing is left after them. -/
inductive ReceivesAll : Session → List Delivery → Prop where
  | nil {session after : Session} (ends : readMessageBegin session = .error .streamClosed after)
    (drained : after.endpoint.channel.available = 0) : ReceivesAll session []
  | cons {session after : Session} {delivery : Delivery} {rest : List Delivery}
    (one : session.Receives delivery.message delivery.format after)
    (encoding : after.encoding = delivery.writer.encoding)
    (version : after.endpoint.codec.compactVersion? = delivery.writer.endpoint.codec.compactVersion?)
    (others : ReceivesAll after rest) : ReceivesAll session (delivery :: rest)

/-- The next message is read as it was sent, and the session goes on after it. -/
theorem Faces.receives {session : Session} {config : SessionConfig} {base : Channel} {delivery : Delivery}
    {current later : Bytes} (h : session.Faces config base delivery.wrapping delivery.payload current later)
    (hadmitted : delivery.Admitted config) (hkind : delivery.writer.transport.kind = config.transport) :
    ∃ after, session.Receives delivery.message delivery.format after ∧
      after.Stands config { base with transport := delivery.wrapping.tell base.transport } current later ∧
      after.endpoint.codec.format = delivery.format := by
  obtain ⟨hname, -, -, -⟩ := delivery.spec
  have hlegible := Delivery.legible hadmitted
  have htells := Delivery.tells hadmitted hkind h.config_eq
  have hlimit := hadmitted.name
  have hwell := delivery.wellFormed
  have hpayload : delivery.payload = delivery.format.message delivery.message.header ++
      delivery.format.value delivery.message.body := rfl
  rw [hpayload] at h
  cases hm : delivery.message with
  | plain header fields =>
    rw [hm] at h hname hlegible hwell hlimit
    obtain ⟨middle, hread, hmiddle, hformat, hidle⟩ := h.readMessageBegin htells hname hlimit hwell.1
    have hlimits : middle.endpoint.codec.limits = config.limits := by rw [hmiddle.limited, hmiddle.config_eq]
    rw [← hformat] at hmiddle
    obtain ⟨after, hbody, hafter, hcodec⟩ := hmiddle.reads
      (Value.reads_whole hidle (by rw [hformat, hlimits]; exact hlegible)) rfl
    rw [hformat] at hbody
    exact ⟨after, ⟨middle, hread, hbody⟩, hafter, by rw [hcodec, hformat]⟩
  | fault name seqId answer =>
    rw [hm] at h hname hlegible hlimit
    obtain ⟨after, hread, hafter, hformat, -⟩ := h.readMessageBegin_fault htells hname hlimit rfl hlegible
    exact ⟨after, hread, hafter, hformat⟩

/-- In front of any number of messages, all are read as they were sent. -/
theorem Stands.receivesAll {config : SessionConfig} {deliveries : List Delivery}
    (hadmitted : ∀ delivery ∈ deliveries, delivery.Admitted config)
    (hkind : ∀ delivery ∈ deliveries, delivery.writer.transport.kind = config.transport)
    {format : Format} (hencoding : config.encoding = format.encoding) {session : Session} {base : Channel}
    (h : session.Stands config base (Letter.front (deliveries.map Delivery.letter) config.transport)
      (Letter.behind (deliveries.map Delivery.letter) config.transport))
    (hbase : base.transport.kind = config.transport)
    (hmax : config.transport = .raw ∨ base.transport.maxSize = config.maxFrameSize)
    (hend : base.transport.stream.ending = none) : session.ReceivesAll deliveries := by
  induction deliveries generalizing session base with
  | nil =>
    rw [List.map_nil, Letter.front_nil, Letter.behind_nil] at h
    obtain ⟨after, hread, hsettled⟩ := h.readMessageBegin_end hend hencoding
    exact .nil hread (Channel.available_of_settled hsettled)
  | cons delivery rest ih =>
    obtain ⟨hfirst, hothers⟩ := List.forall_mem_cons.mp hadmitted
    obtain ⟨hkind₁, hkind₂⟩ := List.forall_mem_cons.mp hkind
    obtain ⟨after, hone, hafter, hformat⟩ :=
      (h.faces hbase ((Delivery.fits hfirst hkind₁).comes.of_max hmax)).receives hfirst hkind₁
    refine .cons hone ?_ ?_ (ih hothers hkind₂ hafter (by simpa using hbase) (by simpa using hmax)
      (by simpa using hend))
    · rw [encoding, ← Codec.encoding_format, hformat, Delivery.format, Session.format, Codec.encoding_format]
      rfl
    · rw [← Codec.compactVersion?_format, hformat, Delivery.format, Session.format, Codec.compactVersion?_format]

/-- A session on the output of any senders, however it arrives, reads every message as it was sent and then finds
the end of the stream. -/
theorem receivesAll_of_outputs {config : SessionConfig} {deliveries : List Delivery} {chunk : Option Nat}
    {reader : Session}
    (hopen : ofStream? config { unread := deliveries.flatMap Delivery.output, chunk } = .ok reader)
    (hkind : ∀ delivery ∈ deliveries, delivery.writer.transport.kind = config.transport)
    (hadmitted : ∀ delivery ∈ deliveries, delivery.Admitted config) : reader.ReceivesAll deliveries := by
  obtain ⟨hstands, format, hencoding⟩ := Stands.of_open hopen (Delivery.carried hadmitted hkind)
  refine hstands.receivesAll hadmitted hkind hencoding ?_ ?_ ?_
  · exact Transport.kind_ofStream _ _ _
  · exact Transport.maxSize_ofStream _ _ _
  · exact congrArg Stream.ending (Transport.stream_ofStream _ _ _)

/-- Two messages in different codecs are read, octet by octet. -/
theorem receivesAll_call_and_fault : ∃ deliveries : List Delivery,
    deliveries.map Delivery.message =
      [.plain ⟨"Search", .call, -7⟩ [(40, .bool true), (3, .bool false)], .fault "Search" 7 ⟨.internalError, "?"⟩] ∧
    deliveries.map Delivery.format = [.compact .bigEndian, .binary] ∧
    ∃ reader, ofStream? {} { unread := deliveries.flatMap Delivery.output, chunk := some 1 } = .ok reader ∧
      reader.ReceivesAll deliveries := by
  have hfields {p : Value → Prop} (hstruct : ∀ fields, p (.struct fields)) (hbool : ∀ value, p (.bool value)) :
      (Value.struct [(40, .bool true), (3, .bool false)]).Throughout p := by
    refine Value.throughout_struct.mpr ⟨hstruct _, ?_⟩
    simpa using ⟨Value.throughout_of_parts (hbool true) rfl, Value.throughout_of_parts (hbool false) rfl⟩
  obtain ⟨first, hfirst, hwriter₁, houtput₁⟩ := Delivery.exists_of_fits
    (show (Message.plain ⟨"Search", .call, -7⟩ [(40, .bool true), (3, .bool false)]).WellFormed from
      ⟨by decide, by simp [Value.WellTyped, Value.FieldsWellTyped]⟩)
    (show AtRest ⟨{}, .compact { version := .bigEndian }, { transport := .ofStream .framed {} 100 }⟩ from ⟨rfl, rfl⟩)
    (by decide) (hfields (fun _ => trivial) fun _ => trivial)
    ⟨show List.length _ ≤ UInt32.toNat 100 by decide +kernel, by rintro _ ⟨⟩⟩
  obtain ⟨second, hsecond, hwriter₂, houtput₂⟩ := Delivery.exists_of_fits
    (show (Message.fault "Search" 7 ⟨.internalError, "?"⟩).WellFormed from trivial)
    (show AtRest ⟨{}, .binary {}, { transport := .ofStream .framed {} 100 }⟩ from ⟨rfl, rfl⟩)
    (by decide) (Fault.throughout (fun _ => trivial) (show (Utf8.encode "?").length ≤ Endpoint.maxSize by decide)
      fun _ => trivial)
    ⟨show List.length _ ≤ UInt32.toNat 100 by decide +kernel, by rintro _ ⟨⟩⟩
  have hadmitted₁ : first.Admitted {} := by
    refine ⟨?_, ?_, .inr ?_, .inr (.inl rfl)⟩
    · rw [hfirst]
      exact .inr (by decide)
    · rw [hfirst]
      exact hfields (fun _ => trivial) fun _ => trivial
    · rw [houtput₁]
      decide +kernel
  have hadmitted₂ : second.Admitted {} := by
    refine ⟨?_, ?_, .inr ?_, .inr (.inl rfl)⟩
    · rw [hsecond]
      exact .inr (by decide)
    · rw [hsecond]
      exact Fault.throughout (fun _ => trivial) (.inr (by decide)) fun _ => trivial
    · rw [houtput₂]
      decide +kernel
  obtain ⟨reader, hopen⟩ : ∃ reader,
      ofStream? {} { unread := [first, second].flatMap Delivery.output, chunk := some 1 } = .ok reader := ⟨_, rfl⟩
  refine ⟨[first, second], by simp [hfirst, hsecond], ?_, reader, hopen, receivesAll_of_outputs hopen ?_ ?_⟩
  · simp only [List.map_cons, List.map_nil, Delivery.format, hwriter₁, hwriter₂]
    rfl
  · simp only [List.forall_mem_cons, hwriter₁, hwriter₂]
    exact ⟨rfl, rfl, List.forall_mem_nil _⟩
  · simp only [List.forall_mem_cons]
    exact ⟨hadmitted₁, hadmitted₂, List.forall_mem_nil _⟩

/-- An empty map in the compact encoding comes back without the shapes it announced, and a session that neither
looks at the first octets nor expects the encoding of a message does not read it. -/
theorem not_received_as_sent : ∃ delivery : Delivery,
    delivery.message = .plain ⟨"Search", .call, 1⟩ [(1, .map .byte .list [])] ∧
    delivery.format = .compact .littleEndian ∧ delivery.output.length ≤ 100 ∧
    (∃ reader middle after, ofStream? { transport := .raw } { unread := delivery.output } = .ok reader ∧
      readMessageBegin reader = .ok ⟨"Search", .call, 1⟩ middle ∧
      onWire (Value.read .struct) middle = .ok (.struct [(1, .map .stop .stop [])]) after) ∧
    ∃ reader, ofStream? { transport := .raw, autoDetect := false } { unread := delivery.output } = .ok reader ∧
      ∀ header after, readMessageBegin reader ≠ .ok header after := by
  have hfields {p : Value → Prop} (hstruct : ∀ fields, p (.struct fields)) (hmap : p (.map .byte .list [])) :
      (Value.struct [(1, .map .byte .list [])]).Throughout p := by
    refine Value.throughout_struct.mpr ⟨hstruct _, ?_⟩
    simpa using Value.throughout_of_parts hmap rfl
  obtain ⟨delivery, hmessage, hwriter, houtput⟩ := Delivery.exists_of_fits
    (show (Message.plain ⟨"Search", .call, 1⟩ [(1, .map .byte .list [])]).WellFormed from
      ⟨by decide, by simp [Value.WellTyped, Value.FieldsWellTyped, Value.EntriesWellTyped, Endpoint.maxSize]⟩)
    (show AtRest ⟨{}, .compact {}, { transport := .ofStream .raw {} 0 }⟩ from ⟨rfl, rfl⟩)
    (by decide) (hfields (fun _ => trivial) ⟨by decide, .inr (.inl rfl)⟩) ⟨trivial, by rintro _ ⟨⟩⟩
  have hformat : delivery.format = .compact .littleEndian := by
    rw [Delivery.format, hwriter]
    rfl
  have hbytes : delivery.output = [0x82, 0x21, 1, 6, 83, 101, 97, 114, 99, 104, 0x1b, 0, 0] := by
    rw [houtput]
    decide +kernel
  refine ⟨delivery, hmessage, hformat, by rw [hbytes]; decide, ?_, ?_⟩
  · obtain ⟨reader, hopen⟩ : ∃ reader,
        ofStream? { transport := .raw } { unread := delivery.output } = .ok reader := ⟨_, rfl⟩
    have hadmitted : delivery.Admitted { transport := .raw } := by
      refine ⟨?_, ?_, .inl rfl, .inr (.inl rfl)⟩
      · rw [hmessage]
        exact .inr (by decide)
      · rw [hmessage]
        exact hfields (fun _ => trivial) (.inl rfl)
    have hkind : delivery.writer.transport.kind = .raw := by
      rw [hwriter]
      rfl
    have hcarried : Letter.Carried [delivery.letter] 16777216 delivery.output .raw := by
      have hall := Delivery.carried
        (show ∀ other ∈ [delivery], other.Admitted { transport := .raw } by simpa using hadmitted)
        (by simpa using hkind)
      simpa using hall
    obtain ⟨hstands, -⟩ := Stands.of_open hopen hcarried
    obtain ⟨after, hreceives, -⟩ :=
      (hstands.faces rfl ((Delivery.fits hadmitted hkind).comes.of_max (.inl rfl))).receives hadmitted hkind
    rw [hmessage, hformat] at hreceives
    obtain ⟨middle, hread, hbody⟩ := hreceives
    exact ⟨reader, middle, after, hopen, hread, hbody⟩
  · rw [hbytes]
    obtain ⟨reader, hopen, hnone⟩ : ∃ reader,
        ofStream? { transport := .raw, autoDetect := false }
          { unread := [0x82, 0x21, 1, 6, 83, 101, 97, 114, 99, 104, 0x1b, 0, 0] } = .ok reader ∧
        (readMessageBegin.run' reader).isNone := ⟨_, rfl, by decide +kernel⟩
    refine ⟨reader, hopen, fun header after h => ?_⟩
    delta EStateM.run' EStateM.run at hnone
    rw [h] at hnone
    cases hnone

end Session
end RpcWire
