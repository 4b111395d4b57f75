import RpcWire.Proofs.Balance
import RpcWire.Server

/-! A server and the connections it serves at once. Sockets come in, requests are answered, connections end and give
their buffer sets back, in any order. -/
namespace RpcWire

namespace Session

/-- Answers requests, each with a processor of its own, until one fails: how many were answered in all, and the
failure. A processor stands for all that happens during a request, input that arrives meanwhile included. -/
def serveEach : List Processor → Session → Nat → Nat × Option HandlerEnd × Session
  | [], session, served => (served, none, session)
  | process :: requests, session, served =>
    match process session with
    | .ok () session => serveEach requests session (served + 1)
    | .error ending session => (served, some ending, session)

def serveFresh (config : SessionConfig) (stream : Stream) (requests : List Processor) :
    Except WireError (Nat × Option HandlerEnd × Session) :=
  (ofStream? config stream).map fun session => serveEach requests session 0

/-- A request more, where all before it were answered. -/
theorem serveEach_concat {requests : List Processor} {session after : Session} {served answered : Nat}
    (h : serveEach requests session served = (answered, none, after)) (process : Processor) :
    serveEach (requests ++ [process]) session served = serveEach [process] after answered := by
  induction requests generalizing session served with
  | nil =>
    cases h
    rfl
  | cons first rest ih =>
    rw [serveEach] at h
    rw [List.cons_append, serveEach]
    cases hfirst : first session with
    | ok _ mid =>
      rw [hfirst] at h
      exact ih h
    | error ending mid =>
      rw [hfirst] at h
      cases h

private theorem serveFresh_concat {config : SessionConfig} {stream : Stream} {requests : List Processor}
    {answered : Nat}
    {after : Session} (h : serveFresh config stream requests = .ok (answered, none, after)) (process : Processor) :
    serveFresh config stream (requests ++ [process]) = .ok (serveEach [process] after answered) := by
  rw [serveFresh] at h ⊢
  cases hopen : ofStream? config stream with
  | error err =>
    rw [hopen] at h
    cases h
  | ok session =>
    rw [hopen] at h
    exact congrArg Except.ok (serveEach_concat (Except.ok.inj h) process)

/-- Of a buffer set only its room matters. -/
theorem onBuffers?_eq (config : SessionConfig) (stream : Stream) (set : BufferSet) :
    onBuffers? config stream set = ofStream? config stream := by
  rw [onBuffers?]
  cases hopen : ofStream? config stream with
  | error err => rfl
  | ok session =>
    obtain ⟨codec, -, rfl⟩ := eq_of_open hopen
    rfl

/-- Where no session can be made, the settings are at fault. -/
theorem isError_of_unopened {config : SessionConfig} {stream : Stream} {err : WireError}
    (h : ofStream? config stream = .error err) : (HandlerEnd.failed (.wire err)).isError = true := by
  rw [ofStream?] at h
  cases hencoding : config.encoding <;> rw [hencoding] at h <;> cases h <;> rfl

end Session

inductive Stage where
  /-- It has no buffer set yet. -/
  | starting
  | serving (set : BufferSet) (session : Session)
  /-- A request has failed, and the buffer set is not back yet. -/
  | stopped (set : BufferSet) (session : Session) (ending : HandlerEnd)
  /-- With the session as it was left, if one could be made. -/
  | ended (session : Option Session) (ending : HandlerEnd)

def ServerEvent.ofEnd : Option Session → HandlerEnd → ServerEvent
  | none, _ => .unserved
  | some _, ending => .finished ending

/-- The service of one connection. -/
structure Handler where
  stream : Stream
  stage : Stage := .starting
  /-- The requests so far, each by the processor that it was given to. -/
  requests : List Processor := []
  /-- How often a buffer set was given back. -/
  givenBack : Nat := 0

namespace Handler

inductive Act where
  /-- An option of the socket cannot be set. -/
  | refuse (cause : IoError)
  /-- Takes a buffer set and makes a session. -/
  | start
  | request (process : Processor)
  /-- Gives the buffer set back, which has grown to some room. -/
  | giveBack (capacity : Nat)

def set? (handler : Handler) : Option BufferSet :=
  match handler.stage with
  | .serving set _ | .stopped set _ _ => some set
  | .starting | .ended _ _ => none

def session? (handler : Handler) : Option Session :=
  match handler.stage with
  | .serving _ session | .stopped _ session _ => some session
  | .ended session _ => session
  | .starting => none

def ending? (handler : Handler) : Option HandlerEnd :=
  match handler.stage with
  | .stopped _ _ ending | .ended _ ending => some ending
  | .starting | .serving _ _ => none

def written (handler : Handler) : Bytes :=
  (handler.session?.map (·.stream.written)).getD handler.stream.written

def isServed (handler : Handler) : Bool := handler.session?.isSome

def isFailed (handler : Handler) : Bool :=
  handler.ending?.any HandlerEnd.isError

def isPanicked (handler : Handler) : Bool :=
  handler.ending?.any HandlerEnd.isPanic

/-- How many of its requests are answered, as a session with fresh buffers tells. -/
def answered (config : SessionConfig) (handler : Handler) : Nat :=
  match Session.serveFresh config handler.stream handler.requests with
  | .ok (answered, _, _) => answered
  | .error _ => 0

/-- An act that is not due changes nothing. -/
def step (act : Act) (handler : Handler) (server : Server) : Handler × Server :=
  match act, handler.stage with
  | .refuse cause, .starting => ({ handler with stage := .ended none (.failed (.io cause)) }, server)
  | .start, .starting =>
    let (set, buffers) := server.buffers.get
    match Session.onBuffers? server.settings.session handler.stream set with
    | .ok session => ({ handler with stage := .serving set session }, { server with buffers })
    | .error err => ({ handler with stage := .ended none (.failed (.wire err)) }, { server with buffers })
  | .request process, .serving set session =>
    let requests := handler.requests ++ [process]
    match process session with
    | .ok () session => ({ handler with stage := .serving set session, requests }, server.record .answered)
    | .error ending session => ({ handler with stage := .stopped set session ending, requests }, server)
  | .giveBack capacity, .stopped set session ending =>
    ({ handler with stage := .ended (some session) ending, givenBack := handler.givenBack + 1 },
      { server with buffers := server.buffers.put (session.buffers set capacity) })
  | _, _ => (handler, server)

inductive Moves : Handler → Server → Handler → Server → Prop where
  | stays (handler : Handler) (server : Server) : Moves handler server handler server
  | refused (stream : Stream) (requests : List Processor) (givenBack : Nat) (server : Server) (cause : IoError) :
    Moves ⟨stream, .starting, requests, givenBack⟩ server
      ⟨stream, .ended none (.failed (.io cause)), requests, givenBack⟩ server
  | unmade (stream : Stream) (requests : List Processor) (givenBack : Nat) (server : Server) (err : WireError)
    (h : Session.ofStream? server.settings.session stream = .error err) :
    Moves ⟨stream, .starting, requests, givenBack⟩ server
      ⟨stream, .ended none (.failed (.wire err)), requests, givenBack⟩ { server with buffers := server.buffers.get.2 }
  | started (stream : Stream) (requests : List Processor) (givenBack : Nat) (server : Server) (session : Session)
    (h : Session.ofStream? server.settings.session stream = .ok session) :
    Moves ⟨stream, .starting, requests, givenBack⟩ server
      ⟨stream, .serving server.buffers.get.1 session, requests, givenBack⟩
      { server with buffers := server.buffers.get.2 }
  | answered (stream : Stream) (requests : List Processor) (givenBack : Nat) (server : Server) (set : BufferSet)
    (session after : Session) (process : Processor) (h : process session = .ok () after) :
    Moves ⟨stream, .serving set session, requests, givenBack⟩ server
      ⟨stream, .serving set after, requests ++ [process], givenBack⟩ (server.record .answered)
  | failed (stream : Stream) (requests : List Processor) (givenBack : Nat) (server : Server) (set : BufferSet)
    (session after : Session) (process : Processor) (ending : HandlerEnd) (h : process session = .error ending after) :
    Moves ⟨stream, .serving set session, requests, givenBack⟩ server
      ⟨stream, .stopped set after ending, requests ++ [process], givenBack⟩ server
  | gaveBack (stream : Stream) (requests : List Processor) (givenBack : Nat) (server : Server) (set : BufferSet)
    (session : Session) (ending : HandlerEnd) (capacity : Nat) :
    Moves ⟨stream, .stopped set session ending, requests, givenBack⟩ server
      ⟨stream, .ended (some session) ending, requests, givenBack + 1⟩
      { server with buffers := server.buffers.put (session.buffers set capacity) }

theorem step_moves (act : Act) (handler : Handler) (server : Server) :
    Moves handler server (step act handler server).1 (step act handler server).2 := by
  obtain ⟨stream, stage, requests, givenBack⟩ := handler
  rw [step.eq_def]
  split
  · next cause hstage =>
    cases hstage
    exact .refused ..
  · next hstage =>
    cases hstage
    simp only [Session.onBuffers?_eq]
    cases hopen : Session.ofStream? server.settings.session stream with
    | ok session => exact .started (h := hopen) ..
    | error err => exact .unmade (h := hopen) ..
  · next process set session hstage =>
    cases hstage
    cases hprocess : process session with
    | ok _ after => exact .answered (h := hprocess) ..
    | error ending after => exact .failed (h := hprocess) ..
  · next capacity set session ending hstage =>
    cases hstage
    exact .gaveBack ..
  · exact .stays ..

/-- A handler is where a session with fresh buffers would be after the same requests; without a session there are none,
and none that could panic. -/
def Faithful (config : SessionConfig) (handler : Handler) : Prop :=
  match handler.stage with
  | .starting => handler.requests = []
  | .serving _ session =>
    ∃ answered, Session.serveFresh config handler.stream handler.requests = .ok (answered, none, session)
  | .stopped _ session ending | .ended (some session) ending =>
    ∃ answered, Session.serveFresh config handler.stream handler.requests = .ok (answered, some ending, session)
  | .ended none ending => handler.requests = [] ∧ ending.isPanic = false

private theorem Moves.settings {handler after : Handler} {server later : Server}
    (h : Moves handler server after later) :
    later.settings = server.settings := by
  cases h <;> rfl

theorem answered_of_eq {config : SessionConfig} {handler : Handler} {count : Nat} {ending : Option HandlerEnd}
    {session : Session}
    (h : Session.serveFresh config handler.stream handler.requests = .ok (count, ending, session)) :
    handler.answered config = count := by
  rw [answered, h]

/-- Its requests are what led a handler to where it is. -/
theorem Faithful.of_session {config : SessionConfig} {handler : Handler} {session : Session}
    (h : handler.Faithful config) (hsession : handler.session? = some session) :
    Session.serveFresh config handler.stream handler.requests =
      .ok (handler.answered config, handler.ending?, session) := by
  have hserved : ∃ count, Session.serveFresh config handler.stream handler.requests =
      .ok (count, handler.ending?, session) := by
    obtain ⟨stream, stage, requests, givenBack⟩ := handler
    cases stage with
    | starting => cases hsession
    | serving set _ =>
      cases hsession
      exact h
    | stopped set _ ending =>
      cases hsession
      exact h
    | ended last ending =>
      cases hsession
      exact h
  obtain ⟨count, hcount⟩ := hserved
  rw [answered_of_eq hcount, hcount]

/-- Where no request was made none is answered. -/
theorem answered_nil {config : SessionConfig} {handler : Handler} (h : handler.requests = []) :
    handler.answered config = 0 := by
  rw [answered, h, Session.serveFresh]
  cases Session.ofStream? config handler.stream <;> rfl

structure Counted (config : SessionConfig) (handler after : Handler) (server later : Server) : Prop where
  faithful : after.Faithful config
  requests : later.counts.requests + handler.answered config = server.counts.requests + after.answered config
  others : later.counts = { server.counts with requests := later.counts.requests }

private theorem Moves.counted {config : SessionConfig} {handler after : Handler} {server later : Server}
    (h : Moves handler server after later) (hconfig : server.settings.session = config)
    (hfaithful : handler.Faithful config) : Counted config handler after server later := by
  cases h with
  | stays => exact ⟨hfaithful, rfl, rfl⟩
  | refused | unmade => exact ⟨⟨hfaithful, rfl⟩, rfl, rfl⟩
  | started stream requests givenBack _ session hopen =>
    refine ⟨⟨0, ?_⟩, rfl, rfl⟩
    have hnone : requests = [] := hfaithful
    rw [hnone, ← hconfig, Session.serveFresh, hopen]
    rfl
  | answered stream requests givenBack _ set session final process hprocess =>
    obtain ⟨count, hcount⟩ := hfaithful
    have hlast := Session.serveFresh_concat hcount process
    rw [Session.serveEach, hprocess] at hlast
    refine ⟨⟨count + 1, hlast⟩, ?_, rfl⟩
    rw [answered_of_eq hcount, answered_of_eq hlast]
    exact Nat.add_right_comm server.counts.requests 1 count
  | failed stream requests givenBack _ set session final process ending hprocess =>
    obtain ⟨count, hcount⟩ := hfaithful
    have hlast := Session.serveFresh_concat hcount process
    rw [Session.serveEach, hprocess] at hlast
    refine ⟨⟨count, hlast⟩, ?_, rfl⟩
    rw [answered_of_eq hcount, answered_of_eq hlast]
  | gaveBack => exact ⟨hfaithful, rfl, rfl⟩

end Handler

structure Arrival where
  prepared : Bool
  /-- Connections under way when the limit was looked at. -/
  underWay : Nat
  admission : Admission

/-- A server, the socket that it is deciding on, and the connections it serves. What has been is kept as a record. -/
structure Hosting where
  server : Server
  /-- A socket that was looked at and is not counted yet. -/
  pending : Option (Arrival × Stream) := none
  handlers : List Handler := []
  arrivals : List Arrival := []
  failedAccepts : Nat := 0
  /-- The handlers that have finished. -/
  finished : List Handler := []

namespace Hosting

/-- What happens on a server. Handlers are named by their place. -/
inductive Event where
  /-- A socket comes in and is held against the limit. -/
  | accepted (prepared : Bool) (stream : Stream)
  /-- The socket that came in is counted, and served if it was admitted. -/
  | counted
  | acceptFailed
  | acted (place : Nat) (act : Handler.Act)
  /-- A handler that has ended is no longer counted as under way. -/
  | finished (place : Nat)

def receive (arrival : Arrival) (stream : Stream) (hosting : Hosting) : Hosting :=
  { hosting with
    server := { hosting.server with counts := hosting.server.counts.receive arrival.admission }
    pending := none
    arrivals := arrival :: hosting.arrivals
    handlers := match arrival.admission with
      | .served => { stream } :: hosting.handlers
      | .rejected | .unprepared => hosting.handlers }

/-- An event that is not due changes nothing. -/
def step (event : Event) (hosting : Hosting) : Hosting :=
  match event with
  | .accepted prepared stream =>
    match hosting.pending with
    | some _ => hosting
    | none =>
      let admission := hosting.server.counts.admission hosting.server.settings.maxConnections prepared
      { hosting with pending := some (⟨prepared, hosting.handlers.length, admission⟩, stream) }
  | .counted =>
    match hosting.pending with
    | none => hosting
    | some (arrival, stream) => hosting.receive arrival stream
  | .acceptFailed =>
    match hosting.pending with
    | some _ => hosting
    | none =>
      let counts := hosting.server.counts
      { hosting with
        server := { hosting.server with counts := { counts with errors := counts.errors + 1 } }
        failedAccepts := hosting.failedAccepts + 1 }
  | .acted place act =>
    match hosting.handlers[place]? with
    | none => hosting
    | some handler =>
      let (handler, server) := handler.step act hosting.server
      { hosting with server, handlers := hosting.handlers.set place handler }
  | .finished place =>
    match hosting.handlers[place]? with
    | none => hosting
    | some handler =>
      match handler.stage with
      | .ended session ending =>
        { hosting with
          server := hosting.server.record (.ofEnd session ending)
          handlers := hosting.handlers.eraseIdx place
          finished := handler :: hosting.finished }
      | .starting | .serving _ _ | .stopped _ _ _ => hosting

def run (events : List Event) (hosting : Hosting) : Hosting :=
  events.foldl (fun hosting event => step event hosting) hosting

def start (settings : ServerSettings) (maxPooled maxCapacity : Nat) : Hosting :=
  { server := { settings, buffers := { maxPooled, maxCapacity } } }

/-- All handlers, those that have finished included. -/
def everyone (hosting : Hosting) : List Handler :=
  hosting.handlers ++ hosting.finished

inductive Moves (hosting : Hosting) : Hosting → Prop where
  | stays : Moves hosting hosting
  | accepted (prepared : Bool) (stream : Stream) (h : hosting.pending = none) :
    Moves hosting { hosting with pending := some (⟨prepared, hosting.handlers.length,
      hosting.server.counts.admission hosting.server.settings.maxConnections prepared⟩, stream) }
  | counted (arrival : Arrival) (stream : Stream) (h : hosting.pending = some (arrival, stream)) :
    Moves hosting (hosting.receive arrival stream)
  | acceptFailed : Moves hosting { hosting with
      server := { hosting.server with
        counts := { hosting.server.counts with errors := hosting.server.counts.errors + 1 } }
      failedAccepts := hosting.failedAccepts + 1 }
  | acted (before later : List Handler) (handler after : Handler) (server : Server)
    (h : hosting.handlers = before ++ handler :: later) (hmoves : handler.Moves hosting.server after server) :
    Moves hosting { hosting with server, handlers := before ++ after :: later }
  | finished (before later : List Handler) (handler : Handler) (session : Option Session) (ending : HandlerEnd)
    (h : hosting.handlers = before ++ handler :: later) (hended : handler.stage = .ended session ending) :
    Moves hosting { hosting with
      server := hosting.server.record (.ofEnd session ending)
      handlers := before ++ later
      finished := handler :: hosting.finished }

theorem split_set_of_getElem? {α : Type} {items : List α} {place : Nat} {item : α} (h : items[place]? = some item)
    (other : α) :
    ∃ before later, items = before ++ item :: later ∧ items.set place other = before ++ other :: later := by
  obtain ⟨hplace, rfl⟩ := List.getElem?_eq_some_iff.mp h
  refine ⟨items.take place, items.drop (place + 1), ?_, ?_⟩
  · rw [List.getElem_cons_drop, List.take_append_drop]
  · rw [List.set_eq_take_append_cons_drop, if_pos hplace]

theorem step_moves (event : Event) (hosting : Hosting) : Moves hosting (step event hosting) := by
  cases event with
  | accepted prepared stream =>
    simp only [step]
    split
    · exact .stays
    · next hpending => exact .accepted prepared stream hpending
  | counted =>
    simp only [step]
    split
    · exact .stays
    · next arrival stream hpending => exact .counted arrival stream hpending
  | acceptFailed =>
    simp only [step]
    split
    · exact .stays
    · exact .acceptFailed
  | acted place act =>
    simp only [step]
    split
    · exact .stays
    · next handler hplace =>
      obtain ⟨before, later, hhandlers, hset⟩ :=
        split_set_of_getElem? hplace (handler.step act hosting.server).1
      rw [hset]
      exact .acted before later handler _ _ hhandlers (handler.step_moves act hosting.server)
  | finished place =>
    simp only [step]
    split
    · exact .stays
    · next handler hplace =>
      obtain ⟨before, later, hhandlers, hrest⟩ := Lending.split_of_getElem? hplace
      split
      · next session ending hended =>
        rw [hrest]
        exact .finished before later handler session ending hhandlers hended
      all_goals exact .stays

/-- What every event keeps holds after all of them. -/
theorem run_induction {holds : Hosting → Prop}
    (hstep : ∀ hosting after, holds hosting → Moves hosting after → holds after) (events : List Event)
    {hosting : Hosting} (h : holds hosting) : holds (run events hosting) := by
  induction events generalizing hosting with
  | nil => exact h
  | cons event events ih => exact ih (hstep hosting _ h (step_moves event hosting))

/-- Settings stay, every handler is where it would be with fresh buffers, and those that have finished have ended. -/
structure Sound (settings : ServerSettings) (hosting : Hosting) : Prop where
  stays : hosting.server.settings = settings
  faithful : ∀ handler ∈ hosting.everyone, handler.Faithful settings.session
  ended : ∀ handler ∈ hosting.finished, ∃ session ending, handler.stage = .ended session ending

section
variable {settings : ServerSettings} {hosting after : Hosting}

theorem sound_start (settings : ServerSettings) (maxPooled maxCapacity : Nat) :
    Sound settings (start settings maxPooled maxCapacity) :=
  ⟨rfl, fun _ hmem => absurd hmem List.not_mem_nil, fun _ hmem => absurd hmem List.not_mem_nil⟩

/-- What the act of one handler counts. -/
theorem Sound.counted {before later : List Handler} {handler acted : Handler} {server : Server}
    (h : hosting.Sound settings) (hhandlers : hosting.handlers = before ++ handler :: later)
    (hmoves : handler.Moves hosting.server acted server) :
    Handler.Counted settings.session handler acted hosting.server server := by
  apply hmoves.counted (congrArg _ h.stays) (h.faithful handler _)
  simp [everyone, hhandlers]

theorem Sound.moves (h : hosting.Sound settings) (hmoves : Moves hosting after) : after.Sound settings := by
  obtain ⟨hstays, hfaithful, hended⟩ := h
  cases hmoves with
  | stays => exact ⟨hstays, hfaithful, hended⟩
  | accepted prepared stream => exact ⟨hstays, hfaithful, hended⟩
  | counted arrival stream =>
    refine ⟨hstays, fun handler hmem => ?_, hended⟩
    cases hadmission : arrival.admission with
    | served =>
      rw [everyone, receive, hadmission] at hmem
      rcases List.mem_cons.mp hmem with rfl | hold
      · exact rfl
      · exact hfaithful handler hold
    | rejected =>
      rw [everyone, receive, hadmission] at hmem
      exact hfaithful handler hmem
    | unprepared =>
      rw [everyone, receive, hadmission] at hmem
      exact hfaithful handler hmem
  | acceptFailed => exact ⟨hstays, hfaithful, hended⟩
  | acted before later handler acted server hhandlers hmoves =>
    have hcounted := Sound.counted ⟨hstays, hfaithful, hended⟩ hhandlers hmoves
    refine ⟨hmoves.settings.trans hstays, fun other hmem => ?_, hended⟩
    simp only [everyone, List.mem_append, List.mem_cons] at hmem
    by_cases hsame : other = acted
    · exact hsame ▸ hcounted.faithful
    · refine hfaithful other ?_
      simp only [everyone, hhandlers, List.mem_append, List.mem_cons]
      grind
  | finished before later handler session ending hhandlers hstage =>
    refine ⟨hstays, fun other hmem => hfaithful other ?_, fun other hmem => ?_⟩
    · simp only [everyone, List.mem_append, List.mem_cons] at hmem
      simp only [everyone, hhandlers, List.mem_append, List.mem_cons]
      grind
    · rcases List.mem_cons.mp hmem with rfl | hold
      · exact ⟨session, ending, hstage⟩
      · exact hended other hold

end

end Hosting
end RpcWire
