import RpcWire.Proofs.Conversation
import RpcWire.Proofs.Replying
import RpcWire.Search.Service

/-! Serving one connection: every request is answered in the order of the requests, in its own format and under its
own number, and where no answer is due none is given. -/
namespace RpcWire.Search

/-- What a request asks for: a search, or a method that nobody serves. -/
inductive Errand where
  | search (args : Request)
  | other (name : String) (fields : List (Int16 × Value))

namespace Errand

def name : Errand → String
  | .search _ => methodName
  | .other name _ => name

def body : Errand → Value
  | .search args => args.toValue
  | .other _ fields => .struct fields

end Errand

structure Ask where
  errand : Errand
  kind : MessageKind
  seqId : Int32
  format : Format
  wrapping : Wrapping

namespace Ask

def header (ask : Ask) : MessageHeader := ⟨ask.errand.name, ask.kind, ask.seqId⟩

def letter (ask : Ask) : Letter :=
  ⟨ask.wrapping, ask.format.message ask.header ++ ask.format.value ask.errand.body⟩

/-- Whether it is a request, and a service with these settings has room for it. -/
structure Admitted (config : SessionConfig) (ask : Ask) : Prop where
  isRequest : ask.kind.isRequest = true
  name : (Utf8.encode ask.errand.name).length ≤ Endpoint.maxSize
  limit : Endpoint.Within config.limits.text (Utf8.encode ask.errand.name).length
  body : ask.errand.body.Legible ask.format config.limits
  other : ∀ name fields, ask.errand = .other name fields →
    name ≠ methodName ∧ (Value.struct fields).height ≤ config.recursionLimit
  comes : ask.wrapping.Comes ask.letter.payload config.transport config.maxFrameSize
  encoding : ∀ head, ask.wrapping = .envelope head → head.encoding = ask.format.encoding

/-- The answer that a request asks for: the result of the search, or a fault that names the method. -/
def answer (corpus : List String) (ask : Ask) : Message :=
  match ask.errand with
  | .search args => .plain ⟨methodName, .reply, ask.seqId⟩ (run corpus args).fields
  | .other name _ => .fault name ask.seqId (Session.unknownMethod name)

def reply (corpus : List String) (ask : Ask) : Letter :=
  ⟨ask.wrapping.replying ask.format,
    ask.format.message (ask.answer corpus).header ++ ask.format.value (ask.answer corpus).body⟩

/-- Whether the answer can be laid out and fits into a frame or an envelope. -/
structure Answerable (config : SessionConfig) (corpus : List String) (ask : Ask) : Prop where
  accepts : (ask.answer corpus).body.Throughout ask.format.Accepts
  fits : (ask.reply corpus).wrapping.Fits (ask.reply corpus).payload config.transport config.maxFrameSize

theorem name_answer (corpus : List String) (ask : Ask) : (ask.answer corpus).header.name = ask.errand.name := by
  cases he : ask.errand <;> simp only [answer, he, Message.header, Errand.name]

theorem isRequest_answer (corpus : List String) (ask : Ask) : (ask.answer corpus).header.kind.isRequest = false := by
  cases he : ask.errand <;> simp only [answer, he, Message.header] <;> rfl

/-- The service can tell how the request is laid out. -/
theorem Admitted.tells {config : SessionConfig} {ask : Ask} (h : ask.Admitted config) (hauto : config.autoDetect = true)
    {session : Session} (hconfig : session.config = config) : session.Tells ask.format ask.wrapping := by
  have hencoding := h.encoding
  cases hw : ask.wrapping with
  | envelope head =>
    rw [Session.Tells, hencoding head hw]
    exact ask.format.ofWire_encoding
  | bare => exact .inl (hconfig ▸ hauto)
  | frame => exact .inl (hconfig ▸ hauto)

/-- The arguments of a request are read, or passed over where nobody serves the method. -/
def passed (ask : Ask) (config : SessionConfig) (before after : Session) : Prop :=
  match ask.errand with
  | .search args => Session.onWire (Request.read config.recursionLimit) before = .ok args after
  | .other _ _ => Session.skip .struct before = .ok () after

/-- Behind the head of a request stand its arguments. -/
theorem Admitted.passes {config : SessionConfig} {ask : Ask} (h : ask.Admitted config) {session : Session}
    {base : Channel} {current later : Bytes}
    (hstands : session.Stands config base (ask.format.value ask.errand.body ++ current) later)
    (hformat : session.endpoint.codec.format = ask.format) (hidle : session.endpoint.codec.Idle) :
    ∃ after, ask.passed config session after ∧ after.Stands config base current later ∧
      after.endpoint.codec.format = ask.format := by
  have hlimits : session.endpoint.codec.limits = config.limits := by rw [hstands.limited, hstands.config_eq]
  have hlegible := h.body
  rw [← hformat] at hstands hlegible
  rw [← hlimits] at hlegible
  have hdepth : session.config.recursionLimit = config.recursionLimit := by rw [hstands.config_eq]
  unfold passed
  cases he : ask.errand with
  | search args =>
    rw [he] at hstands hlegible
    obtain ⟨after, hread, hafter, hcodec⟩ :=
      hstands.reads (Request.reads_read hidle hlegible config.recursionLimit) rfl
    exact ⟨after, hread, hafter, by rw [hcodec, hformat]⟩
  | other name fields =>
    rw [he] at hstands hlegible
    obtain ⟨after, hread, hafter, hcodec⟩ :=
      hstands.reads (WireM.reads_skip hidle hlegible (h.other name fields he).2) rfl
    refine ⟨after, ?_, hafter, by rw [hcodec, hformat]⟩
    rw [Session.skip, bind_of_ok (get_ok session), hdepth]
    exact hread

/-- The service reads the head and the arguments of a request, and then answers it if an answer is due. -/
theorem Admitted.process_eq {config : SessionConfig} {ask : Ask} (h : ask.Admitted config) (corpus : List String)
    {session middle after : Session} (hhead : Session.readMessageBegin session = .ok ask.header middle)
    (hconfig : middle.config = config) (hpassed : ask.passed config middle after) :
    process corpus session = if ask.kind = .oneway then .ok () after else (ask.answer corpus).send after := by
  have hexpect : Session.expectRequest ask.header = .ok () := if_pos h.isRequest
  have hkind : ask.header.kind = ask.kind := rfl
  rw [process, bind_of_ok hhead, hexpect]
  cases he : ask.errand with
  | search args =>
    have hread : Session.onWire (Request.read config.recursionLimit) middle = .ok args after := by
      simpa only [passed, he] using hpassed
    have hname : ask.header.name = methodName := by simp only [header, he, Errand.name]
    change (if ask.header.name ≠ methodName then _ else _ : SessionM Unit) middle = _
    rw [if_neg (not_not.mpr hname), bind_of_ok (get_ok middle), hconfig, bind_of_ok hread, hkind]
    split
    · rfl
    · simp only [answer, he, Message.send, Session.writeReply, Session.send, header, Errand.name, Response.write_eq]
      rfl
  | other name fields =>
    have hskip : Session.skip .struct middle = .ok () after := by simpa only [passed, he] using hpassed
    have hname : ask.header.name = name := by simp only [header, he, Errand.name]
    change (if ask.header.name ≠ methodName then Session.rejectUnknownMethod ask.header
      else _ : SessionM Unit) middle = _
    rw [hname, if_pos (h.other name fields he).1, Session.rejectUnknownMethod, bind_of_ok hskip, hkind]
    split
    · rfl
    · simp only [answer, he, Message.send, Session.writeFault, Session.send, header, Errand.name]

def output (corpus : List String) (ask : Ask) : Bytes :=
  if ask.kind = .oneway then [] else (ask.reply corpus).wrapping.wrap (ask.reply corpus).payload

/-- One request is taken in and answered, and the session stands in front of what follows. -/
theorem Admitted.process_ok {config : SessionConfig} {ask : Ask} (h : ask.Admitted config)
    (hauto : config.autoDetect = true) {corpus : List String}
    (hanswerable : ask.kind ≠ .oneway → ask.Answerable config corpus) {session : Session}
    {base : Channel} {current later : Bytes} (hready : base.Ready config)
    (hfaces : session.Faces config base ask.wrapping ask.letter.payload current later) :
    ∃ after base', process corpus session = .ok () after ∧ after.Stands config base' current later ∧
      base'.Ready config ∧ base'.transport.stream.written = base.transport.stream.written ++ ask.output corpus := by
  have hkind : ask.header.kind ≠ .exception := by
    have hrequest := h.isRequest
    rintro he
    rw [show ask.kind = .exception from he] at hrequest
    cases hrequest
  obtain ⟨middle, hhead, hmiddle, hformat, hidle⟩ :=
    hfaces.readMessageBegin (h.tells hauto hfaces.config_eq) h.name h.limit hkind
  obtain ⟨after, hpassed, hafter, hformat'⟩ := h.passes hmiddle hformat hidle
  have hprocess := h.process_eq corpus hhead hmiddle.config_eq hpassed
  have hready' := hready.tell ask.wrapping
  by_cases hone : ask.kind = .oneway
  · rw [if_pos hone] at hprocess
    refine ⟨after, _, hprocess, hafter, hready', ?_⟩
    rw [output, if_pos hone, List.append_nil, Wrapping.stream_tell]
  · rw [if_neg hone] at hprocess
    obtain ⟨haccepts, hfits⟩ := hanswerable hone
    have hsame : after.format = ask.format := hformat'
    have hpayload : after.payload (ask.answer corpus).header (ask.answer corpus).body = (ask.reply corpus).payload := by
      rw [Session.payload, hsame]
      rfl
    have hwrapping : (ask.wrapping.tell base.transport).wrapping.replying ask.format = (ask.reply corpus).wrapping :=
      Wrapping.replying_tell hfaces.comes ask.format
    obtain ⟨last, hsend, hlast⟩ := hafter.send hready' (ask.isRequest_answer corpus)
      (by rw [name_answer]; exact h.name) (by rw [hsame]; exact haccepts)
      (by rw [hsame, hpayload, hwrapping]; exact hfits)
    rw [hsame, hpayload] at hlast
    refine ⟨last, _, ?_, hlast, hready'.replied, ?_⟩
    · rw [hprocess, Message.send_eq, hsend]
    · rw [output, if_neg hone, Transport.written_replied hready'.plain, Wrapping.stream_tell, hwrapping]

theorem payload_ne_nil (ask : Ask) : ask.letter.payload ≠ [] :=
  List.append_ne_nil_of_left_ne_nil (Format.message_ne_nil _ _) _

end Ask

/-- In front of any number of requests, all are taken in and answered in their order, and then the stream ends. -/
theorem serveWithin_ok {config : SessionConfig} (hauto : config.autoDetect = true) {format : Format}
    (hencoding : config.encoding = format.encoding) {corpus : List String} {asks : List Ask}
    (hadmitted : ∀ ask ∈ asks, ask.Admitted config)
    (hanswerable : ∀ ask ∈ asks, ask.kind ≠ .oneway → ask.Answerable config corpus) {most : Nat}
    (hmost : asks.length < most) {session : Session} {base : Channel} (hready : base.Ready config)
    (hstands : session.Stands config base (Letter.front (asks.map Ask.letter) config.transport)
      (Letter.behind (asks.map Ask.letter) config.transport)) (served : Nat) :
    ∃ after, Session.serveWithin (process corpus) most session served =
        (served + asks.length, some .streamClosed, after) ∧
      after.stream.written = base.transport.stream.written ++ asks.flatMap (Ask.output corpus) := by
  induction asks generalizing most session base served with
  | nil =>
    obtain ⟨most, rfl⟩ := Nat.exists_eq_add_one.mpr hmost
    rw [List.map_nil, Letter.front_nil, Letter.behind_nil] at hstands
    obtain ⟨after, hread, hsettled⟩ := hstands.readMessageBegin_end hready.ending hencoding
    have hprocess : process corpus session = .error .streamClosed after := bind_of_error hread
    refine ⟨after, ?_, ?_⟩
    · rw [Session.serveWithin, hprocess]
      rfl
    · have hwritten := congrArg (fun channel => channel.transport.stream.written) hsettled
      rw [List.flatMap_nil, List.append_nil]
      simpa [Channel.settled, Channel.holding, Session.stream, Session.transport] using hwritten
  | cons ask rest ih =>
    obtain ⟨most, rfl⟩ := Nat.exists_eq_add_one.mpr (Nat.zero_lt_of_lt hmost)
    obtain ⟨hfirst, hothers⟩ := List.forall_mem_cons.mp hadmitted
    obtain ⟨hanswer, hanswers⟩ := List.forall_mem_cons.mp hanswerable
    have hfaces := hstands.faces hready.kind (hfirst.comes.of_max hready.maxSize)
    obtain ⟨middle, base', hprocess, hmiddle, hready', hwritten⟩ := hfirst.process_ok hauto hanswer hready hfaces
    obtain ⟨after, hserve, hafter⟩ := ih hothers hanswers (Nat.lt_of_succ_lt_succ hmost) hready' hmiddle (served + 1)
    refine ⟨after, ?_, ?_⟩
    · rw [Session.serveWithin, hprocess, List.length_cons, Nat.add_comm rest.length, ← Nat.add_assoc]
      exact hserve
    · rw [hafter, hwritten, List.flatMap_cons, List.append_assoc]

end RpcWire.Search
