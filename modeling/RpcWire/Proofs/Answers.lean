import RpcWire.Proofs.Serving

/-! What a service sends back over one connection, and what a client makes of it. -/
namespace RpcWire.Search

/-- Whether a client with these settings has room for the answer, and can tell how it is laid out. -/
structure Ask.Receivable (config : SessionConfig) (corpus : List String) (ask : Ask) : Prop where
  name : Endpoint.Within config.limits.text (Utf8.encode ask.errand.name).length
  body : (ask.answer corpus).body.Throughout config.limits.Admits
  size : config.transport = .raw ∨
    ((ask.reply corpus).wrapping.wrap (ask.reply corpus).payload).length ≤ config.maxFrameSize.toNat + 4
  encoding : config.transport = .header ∨ config.autoDetect = true ∨ config.encoding = ask.format.encoding

/-- A client reads the answer to a request: the result of the search, or a failure with the fault that names the
method. -/
def Hears (corpus : List String) (session : Session) (ask : Ask) (after : Session) : Prop :=
  match ask.errand with
  | .search args => ∃ middle, session.readMessageBegin = .ok ⟨methodName, .reply, ask.seqId⟩ middle ∧
    Session.onWire (Response.read session.config.recursionLimit) middle = .ok (run corpus args) after
  | .other name _ => session.readMessageBegin = .error (.fault (Session.unknownMethod name)) after

/-- A client reads the answers to some requests, each in the codec of its request and under the number of its
envelope, and nothing is left after them. -/
inductive HearsAll (corpus : List String) : Session → List Ask → Prop where
  | nil {session after : Session} (ends : session.readMessageBegin = .error .streamClosed after)
    (drained : after.endpoint.channel.available = 0) : HearsAll corpus session []
  | cons {session after : Session} {ask : Ask} {rest : List Ask} (one : Hears corpus session ask after)
    (format : after.format = ask.format)
    (number : ∀ head, ask.wrapping = .envelope head → after.transport.head?.map (·.seqId) = some head.seqId)
    (others : HearsAll corpus after rest) : HearsAll corpus session (ask :: rest)

namespace Ask.Receivable

variable {config : SessionConfig} {corpus : List String} {ask : Ask}

/-- A client can tell how the answer is laid out. -/
theorem tells (h : ask.Receivable config corpus) {payload : Bytes} {max : UInt32}
    (hfits : (ask.reply corpus).wrapping.Fits payload config.transport max) {session : Session}
    (hconfig : session.config = config) : session.Tells ask.format (ask.reply corpus).wrapping := by
  have htold {wrapping : Wrapping} (hnone : ∀ head, wrapping ≠ .envelope head)
      (hfits : wrapping.Fits payload config.transport max) : session.Tells ask.format wrapping := by
    have hset : config.autoDetect = true ∨ config.encoding = ask.format.encoding := by
      apply h.encoding.resolve_left
      intro hheader
      rw [hheader] at hfits
      cases wrapping with
      | envelope head => exact hnone head rfl
      | bare => exact hfits
      | frame => exact hfits
    rw [← hconfig] at hset
    cases wrapping with
    | envelope head => exact absurd rfl (hnone head)
    | bare => exact hset
    | frame => exact hset
  have hwrapping : (ask.reply corpus).wrapping = ask.wrapping.replying ask.format := rfl
  rw [hwrapping] at hfits ⊢
  cases hw : ask.wrapping with
  | envelope head => exact ask.format.ofWire_encoding
  | bare => rw [hw] at hfits; exact htold nofun hfits
  | frame => rw [hw] at hfits; exact htold nofun hfits

/-- An answer that was sent is read. -/
theorem hears (h : ask.Receivable config corpus) (hname : (Utf8.encode ask.errand.name).length ≤ Endpoint.maxSize)
    (haccepts : (ask.answer corpus).body.Throughout ask.format.Accepts) {session : Session} {base : Channel}
    {current later : Bytes}
    (hfaces : session.Faces config base (ask.reply corpus).wrapping (ask.reply corpus).payload current later)
    (htells : session.Tells ask.format (ask.reply corpus).wrapping) :
    ∃ after, Hears corpus session ask after ∧ after.format = ask.format ∧
      after.Stands config { base with transport := (ask.reply corpus).wrapping.tell base.transport } current later := by
  have hlimit := h.name
  have hall := haccepts.and h.body
  have hpayload : (ask.reply corpus).payload =
      ask.format.message (ask.answer corpus).header ++ ask.format.value (ask.answer corpus).body := rfl
  rw [hpayload] at hfaces
  unfold Hears
  cases he : ask.errand with
  | search args =>
    have hanswer : ask.answer corpus = .plain ⟨methodName, .reply, ask.seqId⟩ (run corpus args).fields := by
      simp only [answer, he]
    rw [hanswer] at hfaces hall haccepts
    rw [he] at hname hlimit
    have hlegible : (run corpus args).toValue.Legible ask.format config.limits := ⟨Response.wellTyped haccepts, hall⟩
    obtain ⟨middle, hread, hmiddle, hformat, hidle⟩ := hfaces.readMessageBegin htells hname hlimit (by rintro ⟨⟩)
    have hlimits : middle.endpoint.codec.limits = config.limits := by rw [hmiddle.limited, hmiddle.config_eq]
    rw [← hformat] at hmiddle hlegible
    rw [← hlimits] at hlegible
    obtain ⟨after, hbody, hafter, hcodec⟩ :=
      hmiddle.reads (Response.reads_read hidle hlegible session.config.recursionLimit) rfl
    exact ⟨after, ⟨middle, hread, hbody⟩, by rw [Session.format, hcodec, hformat], hafter⟩
  | other name fields =>
    have hanswer : ask.answer corpus = .fault name ask.seqId (Session.unknownMethod name) := by
      simp only [answer, he]
    rw [hanswer] at hfaces hall haccepts
    rw [he] at hname hlimit
    obtain ⟨after, hread, hafter, hformat, -⟩ :=
      hfaces.readMessageBegin_fault htells hname hlimit rfl ⟨Fault.wellTyped haccepts, hall⟩
    exact ⟨after, hread, hformat, hafter⟩

end Ask.Receivable

/-- In front of the answers to any number of requests, a client reads all of them. -/
theorem HearsAll.of_stands {config : SessionConfig} {corpus : List String} {asks : List Ask}
    (hname : ∀ ask ∈ asks, (Utf8.encode ask.errand.name).length ≤ Endpoint.maxSize)
    (hreceivable : ∀ ask ∈ asks, ask.Receivable config corpus)
    (hanswerable : ∀ ask ∈ asks, ask.Answerable config corpus) {format : Format}
    (hencoding : config.encoding = format.encoding) {session : Session} {base : Channel}
    (hstands : session.Stands config base (Letter.front (asks.map (Ask.reply corpus)) config.transport)
      (Letter.behind (asks.map (Ask.reply corpus)) config.transport))
    (hbase : base.transport.kind = config.transport)
    (hmax : config.transport = .raw ∨ base.transport.maxSize = config.maxFrameSize)
    (hend : base.transport.stream.ending = none) : HearsAll corpus session asks := by
  induction asks generalizing session base with
  | nil =>
    rw [List.map_nil, Letter.front_nil, Letter.behind_nil] at hstands
    obtain ⟨after, hread, hsettled⟩ := hstands.readMessageBegin_end hend hencoding
    exact .nil hread (Channel.available_of_settled hsettled)
  | cons ask rest ih =>
    obtain ⟨hname₁, hname₂⟩ := List.forall_mem_cons.mp hname
    obtain ⟨hreceivable₁, hreceivable₂⟩ := List.forall_mem_cons.mp hreceivable
    obtain ⟨hanswerable₁, hanswerable₂⟩ := List.forall_mem_cons.mp hanswerable
    have hfaces := hstands.faces hbase (hanswerable₁.fits.comes.of_max hmax)
    obtain ⟨after, hone, hformat, hafter⟩ := hreceivable₁.hears hname₁ hanswerable₁.accepts hfaces
      (hreceivable₁.tells hanswerable₁.fits hfaces.config_eq)
    refine .cons hone hformat ?_ (ih hname₂ hreceivable₂ hanswerable₂ hafter (by simpa using hbase)
      (by simpa using hmax) (by simpa using hend))
    intro head hw
    have hhead : after.transport.head? = ((ask.reply corpus).wrapping.tell base.transport).head? := hafter.holds.head?
    have hcomes := hfaces.comes
    rw [Ask.reply, hw] at hcomes
    rw [hhead, Ask.reply, hw]
    cases hb : base.transport with
    | header layer => rfl
    | raw stream => rw [hb] at hcomes; exact hcomes.elim
    | framed layer => rw [hb] at hcomes; exact hcomes.elim

def calls (asks : List Ask) : List Ask := asks.filter fun ask => ask.kind = .call

private theorem flatMap_output {corpus : List String} {asks : List Ask}
    (h : ∀ ask ∈ asks, ask.kind.isRequest = true) :
    asks.flatMap (Ask.output corpus) =
      (calls asks).flatMap fun ask => (ask.reply corpus).wrapping.wrap (ask.reply corpus).payload := by
  induction asks with
  | nil => rfl
  | cons ask rest ih =>
    obtain ⟨hrequest, hothers⟩ := List.forall_mem_cons.mp h
    rw [calls] at ih
    rw [List.flatMap_cons, ih hothers, calls, List.filter_cons]
    cases hk : ask.kind with
    | call => simp [Ask.output, hk]
    | oneway => simp [Ask.output, hk]
    | reply => rw [hk] at hrequest; cases hrequest
    | exception => rw [hk] at hrequest; cases hrequest

/-- A service takes in all requests of one stream and answers those that ask for it, in their order, each in its own
format and under its own number. A client that reads the output finds the answers and nothing else. -/
theorem serve_answers {config : SessionConfig} (hauto : config.autoDetect = true) {corpus : List String}
    {asks : List Ask} (hadmitted : ∀ ask ∈ asks, ask.Admitted config)
    (hanswerable : ∀ ask ∈ calls asks, ask.Answerable config corpus) {input : Bytes} {chunk : Option Nat}
    (hcarried : Letter.Carried (asks.map Ask.letter) config.maxFrameSize input config.transport) {session : Session}
    (hopen : Session.ofStream? config { unread := input, chunk } = .ok session) :
    ∃ after, serve corpus session = (asks.length, some .streamClosed, after) ∧
      after.stream.written =
        (calls asks).flatMap (fun ask => (ask.reply corpus).wrapping.wrap (ask.reply corpus).payload) ∧
      ∀ {config' : SessionConfig} {chunk' : Option Nat} {client : Session}, config'.transport = config.transport →
        (∀ ask ∈ calls asks, ask.Receivable config' corpus) →
        Session.ofStream? config' { unread := after.stream.written, chunk := chunk' } = .ok client →
        HearsAll corpus client (calls asks) := by
  obtain ⟨hstands, format, hencoding⟩ := Session.Stands.of_open hopen hcarried
  have hready := Channel.ready_ofStream config input chunk
  have hrequest (ask : Ask) (hm : ask ∈ asks) : ask.kind.isRequest = true := (hadmitted ask hm).isRequest
  have hdue (ask : Ask) (hm : ask ∈ asks) (hone : ask.kind ≠ .oneway) : ask.Answerable config corpus := by
    refine hanswerable ask (List.mem_filter.mpr ⟨hm, ?_⟩)
    have hkind := hrequest ask hm
    cases hk : ask.kind <;> rw [hk] at hkind hone
    · rfl
    · cases hkind
    · cases hkind
    · exact absurd rfl hone
  have hmost : asks.length < session.endpoint.channel.available + 1 := by
    have hletters := Letter.length_le (List.forall_mem_map.mpr fun ask _ => ask.payload_ne_nil :
      ∀ letter ∈ asks.map Ask.letter, letter.payload ≠ []) config.transport
    have hheld := hstands.holds.length_le_available
    rw [List.length_map] at hletters
    omega
  obtain ⟨after, hserve, hwritten⟩ := serveWithin_ok hauto hencoding hadmitted hdue hmost hready hstands 0
  rw [Transport.stream_ofStream, flatMap_output hrequest, List.nil_append] at hwritten
  rw [Nat.zero_add] at hserve
  refine ⟨after, hserve, hwritten, ?_⟩
  intro config' chunk' client htransport hreceivable hclient
  have hanswerable' (ask : Ask) (hm : ask ∈ calls asks) : ask.Answerable config' corpus := by
    have hfits := (hanswerable ask hm).fits
    rw [← htransport] at hfits
    exact ⟨(hanswerable ask hm).accepts, hfits.of_length (hreceivable ask hm).size⟩
  have hcarried' : Letter.Carried ((calls asks).map (Ask.reply corpus)) config'.maxFrameSize after.stream.written
      config'.transport := by
    have hfits : ∀ letter ∈ (calls asks).map (Ask.reply corpus),
        letter.wrapping.Fits letter.payload config'.transport config'.maxFrameSize :=
      List.forall_mem_map.mpr fun ask hm => (hanswerable' ask hm).fits
    have hall := Letter.carried_of_fits hfits
    rw [List.flatMap_map] at hall
    rw [hwritten]
    exact hall
  obtain ⟨hstands', format', hencoding'⟩ := Session.Stands.of_open hclient hcarried'
  have hname (ask : Ask) (hm : ask ∈ calls asks) : (Utf8.encode ask.errand.name).length ≤ Endpoint.maxSize :=
    (hadmitted ask (List.mem_of_mem_filter hm)).name
  exact HearsAll.of_stands hname hreceivable hanswerable' hencoding' hstands' (Transport.kind_ofStream _ _ _)
    (Transport.maxSize_ofStream _ _ _) (congrArg Stream.ending (Transport.stream_ofStream _ _ _))

private def sample : List Ask := [
  ⟨.search ⟨"frame", 1, 5⟩, .call, 7, .compact .bigEndian, .envelope { encoding := .compact, seqId := 70 }⟩,
  ⟨.other "Notice" [], .oneway, 8, .binary, .envelope { encoding := .binary, seqId := 80 }⟩,
  ⟨.other "Ping" [], .call, -1, .compact .littleEndian, .envelope { encoding := .compact, seqId := 90 }⟩]

private theorem legible_empty (format : Format) (limits : Limits) : (Value.struct []).Legible format limits :=
  ⟨trivial, Value.throughout_struct.mpr ⟨⟨trivial, trivial⟩, List.forall_mem_nil _⟩⟩

private theorem admitted_sample : ∀ ask ∈ sample, ask.Admitted { transport := .header } := by
  have hother {name : String} (hname : name ≠ methodName) (other : String) (fields : List (Int16 × Value))
      (h : Errand.other name [] = .other other fields) :
      other ≠ methodName ∧
        (Value.struct fields).height ≤ ({ transport := .header } : SessionConfig).recursionLimit := by
    cases h
    exact ⟨hname, by decide⟩
  simp only [sample, List.forall_mem_cons]
  refine ⟨⟨rfl, by decide, .inr (by decide), Request.legible (by decide) (.inr (by decide)) _, nofun, ?_, ?_⟩,
    ⟨rfl, by decide, .inr (by decide), legible_empty _ _, hother (by decide), ?_, ?_⟩,
    ⟨rfl, by decide, .inr (by decide), legible_empty _ _, hother (by decide), ?_, ?_⟩, List.forall_mem_nil _⟩
  all_goals first
    | rintro head ⟨⟩; rfl
    | exact ⟨show List.length _ / 4 ≤ EnvelopeHead.maxWords by decide +kernel, by decide +kernel⟩

/-- They are taken in, the two calls are answered, and a client reads the answers. -/
theorem serve_answers_three_requests : ∃ (input : Bytes) (session after : Session),
    sample.map Ask.header = [⟨"Search", .call, 7⟩, ⟨"Notice", .oneway, 8⟩, ⟨"Ping", .call, -1⟩] ∧
    Session.ofStream? { transport := .header } { unread := input, chunk := some 3 } = .ok session ∧
    serve ["Framed transport"] session = (3, some .streamClosed, after) ∧
    ∀ client, Session.ofStream? { transport := .header } { unread := after.stream.written } = .ok client →
      HearsAll ["Framed transport"] client (calls sample) := by
  have hcalls : calls sample = [
      ⟨.search ⟨"frame", 1, 5⟩, .call, 7, .compact .bigEndian, .envelope { encoding := .compact, seqId := 70 }⟩,
      ⟨.other "Ping" [], .call, -1, .compact .littleEndian, .envelope { encoding := .compact, seqId := 90 }⟩] := rfl
  have hresponse {p : Value → Prop} (hstruct : ∀ fields, p (.struct fields))
      (hlist : p (.list .string [.text "Framed transport"])) (htext : p (.text "Framed transport"))
      (hnumber : ∀ value, p (.i32 value)) :
      (run ["Framed transport"] ⟨"frame", 1, 5⟩).toValue.Throughout p := by
    have hrun : run ["Framed transport"] ⟨"frame", 1, 5⟩ = ⟨["Framed transport"], 1⟩ := by decide
    rw [hrun]
    exact Response.throughout hstruct hlist (by simpa using htext) hnumber
  have hanswerable : ∀ ask ∈ calls sample, ask.Answerable { transport := .header } ["Framed transport"] := by
    rw [hcalls]
    simp only [List.forall_mem_cons]
    refine ⟨⟨hresponse (fun _ => trivial) ⟨by decide, .inr nofun⟩ ?_ fun _ => trivial, ?_⟩,
      ⟨Fault.throughout (fun _ => trivial) ?_ fun _ => trivial, ?_⟩, List.forall_mem_nil _⟩
    · change (Utf8.encode "Framed transport").length ≤ Endpoint.maxSize
      decide
    · exact ⟨show List.length _ / 4 ≤ EnvelopeHead.maxWords by decide +kernel, by decide +kernel⟩
    · change (Utf8.encode "Unknown method Ping").length ≤ Endpoint.maxSize
      decide
    · exact ⟨show List.length _ / 4 ≤ EnvelopeHead.maxWords by decide +kernel, by decide +kernel⟩
  have hreceivable : ∀ ask ∈ calls sample, ask.Receivable { transport := .header } ["Framed transport"] := by
    rw [hcalls]
    simp only [List.forall_mem_cons]
    refine ⟨⟨.inr (by decide), hresponse (fun _ => trivial) (.inl rfl) (.inr (by decide)) fun _ => trivial, .inr ?_,
        .inl rfl⟩,
      ⟨.inr (by decide), Fault.throughout (fun _ => trivial) (.inr (by decide)) fun _ => trivial, .inr ?_, .inl rfl⟩,
      List.forall_mem_nil _⟩
    all_goals decide +kernel
  obtain ⟨session, hopen⟩ : ∃ session, Session.ofStream? { transport := .header }
    { unread := (sample.map Ask.letter).flatMap fun letter => letter.wrapping.wrap letter.payload, chunk := some 3 } =
      .ok session := ⟨_, rfl⟩
  obtain ⟨after, hserve, -, hclient⟩ := serve_answers rfl admitted_sample hanswerable rfl hopen
  exact ⟨_, session, after, rfl, hopen, hserve, fun client h => hclient rfl hreceivable h⟩

end RpcWire.Search
