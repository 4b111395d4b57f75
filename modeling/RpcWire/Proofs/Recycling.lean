import Mathlib.Algebra.GroupWithZero.Nat
import RpcWire.Proofs.Hosting

/-! Buffer sets go from one connection to the next and carry nothing: each is at one place, it is empty when it is
free, and no connection can tell which one it was given. -/
namespace RpcWire

namespace BufferPool
variable {maxPooled maxCapacity : Nat} {pool : BufferPool}

/-- What a pool keeps: few sets, small ones, with nothing in them. -/
structure Kept (maxPooled maxCapacity : Nat) (pool : BufferPool) : Prop where
  most : pool.maxPooled = maxPooled
  largest : pool.maxCapacity = maxCapacity
  few : pool.free.length ≤ maxPooled
  small : ∀ set ∈ pool.free, set.capacity ≤ maxCapacity
  empty : ∀ set ∈ pool.free, set.readAhead = [] ∧ set.pending = []

private theorem kept_start (maxPooled maxCapacity : Nat) :
    Kept maxPooled maxCapacity { maxPooled, maxCapacity } :=
  ⟨rfl, rfl, Nat.zero_le _, nofun, nofun⟩

private theorem Kept.get (h : pool.Kept maxPooled maxCapacity) : pool.get.2.Kept maxPooled maxCapacity := by
  obtain ⟨_, _, free, made⟩ := pool
  obtain ⟨hpooled, hcapacity, hfew, hsmall, hempty⟩ := h
  cases free with
  | nil => exact ⟨hpooled, hcapacity, hfew, hsmall, hempty⟩
  | cons first rest =>
    exact ⟨hpooled, hcapacity, Nat.le_of_succ_le hfew, fun set hmem => hsmall set (List.mem_cons_of_mem _ hmem),
      fun set hmem => hempty set (List.mem_cons_of_mem _ hmem)⟩

/-- What a set held before goes when it comes back. -/
theorem Kept.put (h : pool.Kept maxPooled maxCapacity) (set : BufferSet) :
    (pool.put set).Kept maxPooled maxCapacity := by
  rw [BufferPool.put]
  split
  · exact h
  · next hcapacity =>
    split
    · next hroom =>
      refine ⟨h.most, h.largest, ?_, fun other hmem => ?_, fun other hmem => ?_⟩
      · rw [List.length_cons, ← h.most]
        exact hroom
      · rcases List.mem_cons.mp hmem with rfl | hold
        · rw [← h.largest]
          exact Nat.le_of_not_lt hcapacity
        · exact h.small other hold
      · rcases List.mem_cons.mp hmem with rfl | hold
        · exact ⟨rfl, rfl⟩
        · exact h.empty other hold
    · exact h

/-- What comes back is kept, with nothing in it, if it is not too large and there is room. -/
theorem Kept.free_put (h : pool.Kept maxPooled maxCapacity) (set : BufferSet) : (pool.put set).free =
    if set.capacity ≤ maxCapacity ∧ pool.free.length < maxPooled then
      { serial := set.serial, capacity := set.capacity } :: pool.free
    else pool.free := by
  rw [BufferPool.put, h.most, h.largest]
  by_cases hsmall : set.capacity ≤ maxCapacity
  · rw [if_neg (Nat.not_lt.mpr hsmall)]
    simp only [hsmall, true_and]
    split <;> rfl
  · rw [if_pos (Nat.lt_of_not_le hsmall), if_neg fun hboth => hsmall hboth.1]

private theorem free_get (pool : BufferPool) : pool.get.2.free = pool.free.tail := by
  obtain ⟨_, _, free, _⟩ := pool
  cases free <;> rfl

/-- At how many places a set is: among those not made yet, in the pool, or in use. -/
def places (serial : Nat) (pool : BufferPool) (held : List BufferSet) : Nat :=
  (if serial < pool.made then 0 else 1) + (pool.free.map (·.serial)).count serial +
    (held.map (·.serial)).count serial

/-- A set that is taken leaves the place where it was. -/
theorem places_get (serial : Nat) (pool : BufferPool) :
    places serial pool.get.2 [pool.get.1] = places serial pool [] := by
  obtain ⟨_, _, free, made⟩ := pool
  cases free with
  | nil =>
    rcases Nat.lt_trichotomy serial made with hbelow | rfl | habove
    · simp [get, make, BufferSet.fresh, places, hbelow, Nat.lt_succ_of_lt hbelow, Nat.ne_of_gt hbelow]
    · simp [get, make, BufferSet.fresh, places]
    · simp [get, make, BufferSet.fresh, places, Nat.ne_of_lt habove, Nat.not_lt.mpr habove, Nat.lt_asymm habove]
  | cons first rest =>
    simp [get, places, List.count_cons, Nat.add_assoc]
    rfl

/-- A set that comes back is kept or lost. -/
theorem places_put (serial : Nat) (pool : BufferPool) (set : BufferSet) :
    places serial (pool.put set) [] ≤ places serial pool [set] := by
  rw [BufferPool.put]
  split
  · simp only [places, List.map_nil, List.count_nil]
    omega
  · split
    · simp only [places, BufferSet.clear, List.map_cons, List.map_nil, List.count_cons, List.count_nil]
      omega
    · simp only [places, List.map_nil, List.count_nil]
      omega

end BufferPool

namespace Handler
variable {handler after : Handler} {server later : Server}

private theorem Moves.kept {maxPooled maxCapacity : Nat} (h : Moves handler server after later)
    (hkept : server.buffers.Kept maxPooled maxCapacity) : later.buffers.Kept maxPooled maxCapacity := by
  cases h with
  | unmade | started => exact hkept.get
  | gaveBack => exact hkept.put _
  | _ => exact hkept

/-- Whatever a handler does, no set comes to be at a place more. -/
theorem Moves.places (h : Moves handler server after later) (serial : Nat) :
    later.buffers.places serial after.set?.toList ≤ server.buffers.places serial handler.set?.toList := by
  cases h with
  | unmade =>
    refine Nat.le_trans ?_ (Nat.le_of_eq (BufferPool.places_get serial server.buffers))
    exact Nat.add_le_add_left (Nat.zero_le _) _
  | started => exact Nat.le_of_eq (BufferPool.places_get serial server.buffers)
  | gaveBack stream requests givenBack _ set session ending capacity =>
    exact BufferPool.places_put serial server.buffers (session.buffers set capacity)
  | _ => exact Nat.le_refl _

/-- A set is given back once, at the end, by whoever had one. -/
def Returns (handler : Handler) : Prop :=
  match handler.stage with
  | .ended (some _) _ => handler.givenBack = 1
  | .ended none _ | .starting | .serving _ _ | .stopped _ _ _ => handler.givenBack = 0

private theorem Returns.of_set (h : handler.Returns) (hset : handler.set? ≠ none) : handler.givenBack = 0 := by
  obtain ⟨stream, stage, requests, givenBack⟩ := handler
  cases stage with
  | serving set session => exact h
  | stopped set session ending => exact h
  | starting => exact absurd rfl hset
  | ended session ending => exact absurd rfl hset

private theorem Moves.returns (h : Moves handler server after later) (hreturns : handler.Returns) :
    after.Returns := by
  cases h with
  | gaveBack => exact congrArg (· + 1) hreturns
  | _ => exact hreturns

/-- An act gives back the set of a handler that has stopped, or lets the pool be but for the set that a start takes. -/
theorem step_passes (act : Act) (handler : Handler) (server : Server) :
    (∃ capacity set session ending, act = .giveBack capacity ∧ handler.stage = .stopped set session ending ∧
      step act handler server =
        ({ handler with stage := .ended (some session) ending, givenBack := handler.givenBack + 1 },
          { server with buffers := server.buffers.put (session.buffers set capacity) })) ∨
    (∀ capacity, act = .giveBack capacity → handler.set? = none ∨ handler.ending? = none) ∧
      (step act handler server).1.givenBack = handler.givenBack ∧
      ((step act handler server).2.buffers = server.buffers ∨
        act = .start ∧ (step act handler server).2.buffers = server.buffers.get.2) := by
  obtain ⟨stream, stage, requests, givenBack⟩ := handler
  rw [step.eq_def]
  split
  · exact .inr ⟨by rintro _ ⟨⟩, rfl, .inl rfl⟩
  · simp only [Session.onBuffers?_eq]
    cases Session.ofStream? server.settings.session stream <;> exact .inr ⟨by rintro _ ⟨⟩, rfl, .inr ⟨trivial, rfl⟩⟩
  · next process set session _ =>
    cases process session <;> exact .inr ⟨by rintro _ ⟨⟩, rfl, .inl rfl⟩
  · next capacity set session ending hstage => exact .inl ⟨capacity, set, session, ending, rfl, hstage, rfl⟩
  · next hother =>
    refine .inr ⟨?_, rfl, .inl rfl⟩
    rintro capacity rfl
    cases stage with
    | starting | ended => exact .inl rfl
    | serving => exact .inr rfl
    | stopped set session ending => exact absurd rfl (hother capacity set session ending rfl)

end Handler

namespace Hosting

def held (hosting : Hosting) : List BufferSet :=
  hosting.handlers.filterMap Handler.set?

structure Recycling (settings : ServerSettings) (maxPooled maxCapacity : Nat) (hosting : Hosting) : Prop where
  sound : hosting.Sound settings
  kept : hosting.server.buffers.Kept maxPooled maxCapacity
  single : ∀ serial, hosting.server.buffers.places serial hosting.held ≤ 1
  returns : ∀ handler ∈ hosting.everyone, handler.Returns

/-- What one handler has in use counts beside what the others have. -/
theorem places_held (serial : Nat) (pool : BufferPool) (before later : List Handler) (handler : Handler) :
    pool.places serial ((before ++ handler :: later).filterMap Handler.set?) =
      pool.places serial handler.set?.toList +
        (((before ++ later).filterMap Handler.set?).map (·.serial)).count serial := by
  cases hset : handler.set? with
  | none => simp [BufferPool.places, hset]
  | some set =>
    simp [BufferPool.places, hset, List.count_cons]
    omega

section
variable {settings : ServerSettings} {maxPooled maxCapacity : Nat} {hosting after : Hosting}

theorem recycling_start (settings : ServerSettings) (maxPooled maxCapacity : Nat) :
    Recycling settings maxPooled maxCapacity (start settings maxPooled maxCapacity) :=
  ⟨sound_start .., BufferPool.kept_start .., fun _ => Nat.le_refl 1, fun _ hmem => absurd hmem List.not_mem_nil⟩

private theorem Recycling.moves (h : hosting.Recycling settings maxPooled maxCapacity)
    (hmoves : Moves hosting after) :
    after.Recycling settings maxPooled maxCapacity := by
  have hsound := h.sound.moves hmoves
  obtain ⟨-, hkept, hsingle, hreturns⟩ := h
  cases hmoves with
  | stays => exact ⟨hsound, hkept, hsingle, hreturns⟩
  | accepted => exact ⟨hsound, hkept, hsingle, hreturns⟩
  | counted arrival stream =>
    obtain ⟨prepared, underWay, admission⟩ := arrival
    cases admission with
    | served =>
      refine ⟨hsound, hkept, hsingle, fun handler hmem => ?_⟩
      rcases List.mem_cons.mp hmem with rfl | hold
      · exact rfl
      · exact hreturns handler hold
    | rejected => exact ⟨hsound, hkept, hsingle, hreturns⟩
    | unprepared => exact ⟨hsound, hkept, hsingle, hreturns⟩
  | acceptFailed => exact ⟨hsound, hkept, hsingle, hreturns⟩
  | acted before later handler acted server hhandlers hmoves =>
    refine ⟨hsound, hmoves.kept hkept, fun serial => ?_, fun other hmem => ?_⟩
    · -- Only the set of the handler that acts can move; those of the others count alike before and after.
      have hbefore := hsingle serial
      rw [held, hhandlers, places_held] at hbefore
      have hmoved := hmoves.places serial
      change server.buffers.places serial ((before ++ acted :: later).filterMap Handler.set?) ≤ 1
      rw [places_held]
      omega
    · simp only [everyone, hhandlers, List.mem_append, List.mem_cons] at hmem hreturns
      rcases hmem with (hmem | rfl | hmem) | hmem
      · exact hreturns other (.inl (.inl hmem))
      · exact hmoves.returns (hreturns handler (.inl (.inr (.inl rfl))))
      · exact hreturns other (.inl (.inr (.inr hmem)))
      · exact hreturns other (.inr hmem)
  | finished before later handler session ending hhandlers hended =>
    refine ⟨hsound, hkept, fun serial => ?_, fun other hmem => ?_⟩
    · have hbefore := hsingle serial
      have hnone : handler.set? = none := by rw [Handler.set?, hended]
      rw [held, hhandlers, places_held, hnone] at hbefore
      exact hbefore
    · simp only [everyone, hhandlers, List.mem_append, List.mem_cons] at hmem hreturns
      exact hreturns other (by grind)

end

end Hosting

/-! ## What a connection cannot tell -/

def Handler.shown (handler : Handler) : Handler :=
  { handler with
    stage := match handler.stage with
      | .serving _ session => .serving (.fresh 0) session
      | .stopped _ session ending => .stopped (.fresh 0) session ending
      | .starting => .starting
      | .ended session ending => .ended session ending }

theorem Handler.shown_shown (handler : Handler) : handler.shown.shown = handler.shown := by
  obtain ⟨stream, stage, requests, givenBack⟩ := handler
  cases stage <;> rfl

theorem Handler.shown_comp : Handler.shown ∘ Handler.shown = Handler.shown :=
  funext shown_shown

def Server.shown (server : Server) : Server :=
  { server with buffers := {} }

/-- Which set a handler uses makes no difference to what it does next. -/
theorem Handler.step_shown (act : Act) (handler : Handler) (server : Server) :
    (step act handler server).1.shown = (step act handler.shown server.shown).1.shown ∧
      (step act handler server).2.shown = (step act handler.shown server.shown).2.shown := by
  obtain ⟨stream, stage, requests, givenBack⟩ := handler
  cases act with
  | refuse fault => cases stage <;> exact ⟨rfl, rfl⟩
  | start =>
    cases stage with
    | starting =>
      simp only [shown, step, Session.onBuffers?_eq, Server.shown]
      cases Session.ofStream? server.settings.session stream <;> exact ⟨rfl, rfl⟩
    | _ => exact ⟨rfl, rfl⟩
  | request process =>
    cases stage with
    | serving set session =>
      simp only [shown, step]
      cases process session <;> exact ⟨rfl, rfl⟩
    | _ => exact ⟨rfl, rfl⟩
  | giveBack capacity => cases stage <;> exact ⟨rfl, rfl⟩

namespace Hosting

/-- All that is seen of a server from outside. -/
def shown (hosting : Hosting) : Hosting :=
  { hosting with
    server := hosting.server.shown
    handlers := hosting.handlers.map Handler.shown
    finished := hosting.finished.map Handler.shown }

theorem step_shown (event : Event) (hosting : Hosting) :
    (step event hosting).shown = (step event hosting.shown).shown := by
  obtain ⟨server, pending, handlers, arrivals, failedAccepts, finished⟩ := hosting
  cases event with
  | accepted prepared stream =>
    simp only [step, shown]
    cases pending <;> simp [Server.shown, Handler.shown_comp]
  | counted =>
    simp only [step, shown]
    cases pending with
    | none => simp [Server.shown, Handler.shown_comp]
    | some arriving =>
      obtain ⟨⟨prepared, underWay, admission⟩, stream⟩ := arriving
      cases admission <;> simp [receive, Server.shown, Handler.shown_comp]
  | acceptFailed =>
    simp only [step, shown]
    cases pending <;> simp [Server.shown, Handler.shown_comp]
  | acted place act =>
    simp only [step, shown, List.getElem?_map]
    cases handlers[place]? with
    | none => simp [Server.shown, Handler.shown_comp]
    | some handler =>
      obtain ⟨hhandler, hserver⟩ := handler.step_shown act server
      simp [List.map_set, hhandler, hserver, Handler.shown_comp]
  | finished place =>
    simp only [step, shown, List.getElem?_map]
    cases handlers[place]? with
    | none => simp [Server.shown, Handler.shown_comp]
    | some handler =>
      obtain ⟨stream, stage, requests, givenBack⟩ := handler
      cases stage <;> simp [Handler.shown, Server.shown, Server.record, List.eraseIdx_eq_take_drop_succ,
        List.map_take, List.map_drop, Handler.shown_comp]

/-- Two servers that look the same go on to look the same. -/
theorem run_shown (events : List Event) {hosting other : Hosting} (h : hosting.shown = other.shown) :
    (run events hosting).shown = (run events other).shown := by
  induction events generalizing hosting other with
  | nil => exact h
  | cons event events ih =>
    apply ih
    rw [step_shown event hosting, step_shown event other, h]

def returned (hosting : Hosting) : Nat := (hosting.everyone.map (·.givenBack)).sum

theorem returned_of_split {hosting : Hosting} {before later : List Handler} {handler : Handler}
    (h : hosting.handlers = before ++ handler :: later) :
    hosting.returned = handler.givenBack + ((before ++ later ++ hosting.finished).map (·.givenBack)).sum := by
  simp only [returned, everyone, h, List.map_append, List.map_cons, List.sum_append, List.sum_cons]
  omega

/-- What one event does to the pool. A connection that has a set in use when its service has stopped gives it back when
that is asked of it; one that starts takes the set that is in front. Nothing else concerns the pool. -/
inductive Passes (maxPooled maxCapacity : Nat) (hosting after : Hosting) : Event → Prop where
  | rests {event : Event} (hpool : after.server.buffers = hosting.server.buffers)
    (hreturned : after.returned = hosting.returned)
    (hundue : ∀ place capacity handler, event = .acted place (.giveBack capacity) →
      hosting.handlers[place]? = some handler → handler.set? = none ∨ handler.ending? = none) :
    Passes maxPooled maxCapacity hosting after event
  | takes (place : Nat) (hfree : after.server.buffers.free = hosting.server.buffers.free.tail)
    (hreturned : after.returned = hosting.returned) :
    Passes maxPooled maxCapacity hosting after (.acted place .start)
  | givesBack (place capacity : Nat) (handler ended : Handler) (set : BufferSet)
    (hhandler : hosting.handlers[place]? = some handler) (hafter : after.handlers = hosting.handlers.set place ended)
    (hset : handler.set? = some set) (hnone : ended.set? = none) (hsession : ended.session? = handler.session?)
    (hending : ended.ending? = handler.ending? ∧ handler.ending? ≠ none)
    (hreturned : after.returned = hosting.returned + 1)
    (hfree : after.server.buffers.free =
      if capacity ≤ maxCapacity ∧ hosting.server.buffers.free.length < maxPooled then
        { serial := set.serial, capacity } :: hosting.server.buffers.free
      else hosting.server.buffers.free) :
    Passes maxPooled maxCapacity hosting after (.acted place (.giveBack capacity))

private theorem Passes.of_other {maxPooled maxCapacity : Nat} {hosting after : Hosting} {event : Event}
    (hother : ∀ place capacity, event ≠ .acted place (.giveBack capacity))
    (hpool : after.server.buffers = hosting.server.buffers) (hreturned : after.returned = hosting.returned) :
    Passes maxPooled maxCapacity hosting after event :=
  .rests hpool hreturned fun place capacity _ hevent => absurd hevent (hother place capacity)

theorem step_passes {maxPooled maxCapacity : Nat} {hosting : Hosting}
    (hkept : hosting.server.buffers.Kept maxPooled maxCapacity) (event : Event) :
    Passes maxPooled maxCapacity hosting (step event hosting) event := by
  cases event with
  | accepted prepared stream =>
    simp only [step]
    split <;> exact .of_other (by simp) rfl rfl
  | counted =>
    simp only [step]
    split
    · exact .of_other (by simp) rfl rfl
    · next arrival stream _ =>
      refine .of_other (by simp) rfl ?_
      obtain ⟨prepared, underWay, admission⟩ := arrival
      cases admission with
      | served => simp [returned, everyone, receive]
      | rejected | unprepared => rfl
  | acceptFailed =>
    simp only [step]
    split <;> exact .of_other (by simp) rfl rfl
  | acted place act =>
    simp only [step]
    split
    · next hplace =>
      refine .rests rfl rfl fun _ _ handler hevent hsome => ?_
      cases hevent
      cases hplace.symm.trans hsome
    · next handler hplace =>
      obtain ⟨before, later, hhandlers, hset⟩ := split_set_of_getElem? hplace (handler.step act hosting.server).1
      have hbefore := returned_of_split hhandlers
      have hafter (server : Server) : returned { hosting with
          server, handlers := hosting.handlers.set place (handler.step act hosting.server).1 } = _ :=
        returned_of_split hset
      rcases handler.step_passes act hosting.server with
        ⟨capacity, set, session, ending, rfl, hstage, hstep⟩ | ⟨hundue, hsame, hpool⟩
      · rw [hstep] at hafter ⊢
        refine .givesBack place capacity handler _ set hplace rfl ?_ rfl ?_ ?_ ?_
          (hkept.free_put (session.buffers set capacity))
        · rw [Handler.set?, hstage]
        · rw [Handler.session?, Handler.session?, hstage]
        · rw [Handler.ending?, Handler.ending?, hstage]
          exact ⟨rfl, Option.some_ne_none ending⟩
        · rw [hafter, hbefore]
          exact Nat.add_right_comm handler.givenBack 1 _
      · have hreturned := (hafter (handler.step act hosting.server).2).trans (hsame ▸ hbefore.symm)
        rcases hpool with hpool | ⟨rfl, hpool⟩
        · refine .rests hpool hreturned fun _ capacity other hevent hother => ?_
          cases hevent
          cases hplace.symm.trans hother
          exact hundue capacity rfl
        · exact .takes place (hpool ▸ hosting.server.buffers.free_get) hreturned
  | finished place =>
    simp only [step]
    split
    · exact .of_other (by simp) rfl rfl
    · next handler hplace =>
      obtain ⟨before, later, hhandlers, hrest⟩ := Lending.split_of_getElem? hplace
      split
      · refine .of_other (by simp) rfl ?_
        rw [returned_of_split hhandlers, hrest]
        simp only [returned, everyone, List.map_append, List.map_cons, List.sum_append, List.sum_cons]
        omega
      all_goals exact .of_other (by simp) rfl rfl

/-- What holds of the buffer sets at every point. -/
structure Isolated (settings : ServerSettings) (maxPooled maxCapacity : Nat) (hosting : Hosting) : Prop where
  kept : hosting.server.buffers.Kept maxPooled maxCapacity
  /-- No set is twice in the pool, in use by two connections, or in the pool and in use. -/
  apart : ((hosting.server.buffers.free ++ hosting.held).map (·.serial)).Nodup
  /-- A connection is where a session with fresh buffers would be after the same requests. -/
  asFresh : ∀ handler ∈ hosting.everyone, ∀ session, handler.session? = some session →
    Session.serveFresh settings.session handler.stream handler.requests =
      .ok (handler.answered settings.session, handler.ending?, session)
  /-- Who uses a set has not given it back. -/
  inUse : ∀ handler ∈ hosting.handlers, handler.set? ≠ none → handler.givenBack = 0
  /-- Who has finished has given a set back, once, unless no session could be made. -/
  once : ∀ handler ∈ hosting.finished,
    handler.set? = none ∧ handler.givenBack = if handler.session?.isSome then 1 else 0

private theorem Recycling.isolated {settings : ServerSettings} {maxPooled maxCapacity : Nat} {hosting : Hosting}
    (h : hosting.Recycling settings maxPooled maxCapacity) : hosting.Isolated settings maxPooled maxCapacity := by
  obtain ⟨⟨-, hfaithful, hended⟩, hkept, hsingle, hreturns⟩ := h
  refine ⟨hkept, ?_, ?_, ?_, ?_⟩
  · rw [List.nodup_iff_count]
    intro serial
    have hplaces := hsingle serial
    rw [BufferPool.places] at hplaces
    rw [List.map_append, List.count_append]
    omega
  · intro handler hmem session hsession
    exact (hfaithful handler hmem).of_session hsession
  · intro handler hmem hset
    exact (hreturns handler (List.mem_append_left _ hmem)).of_set hset
  · intro handler hmem
    obtain ⟨session, ending, hstage⟩ := hended handler hmem
    have hback := hreturns handler (List.mem_append_right _ hmem)
    rw [Handler.Returns, hstage] at hback
    rw [Handler.set?, Handler.session?, hstage]
    cases session with
    | none => exact ⟨rfl, hback⟩
    | some session => exact ⟨rfl, hback⟩

theorem run_recycling (settings : ServerSettings) (maxPooled maxCapacity : Nat) (events : List Event) :
    Recycling settings maxPooled maxCapacity (run events (start settings maxPooled maxCapacity)) :=
  run_induction (fun _ _ => Recycling.moves) events (recycling_start settings maxPooled maxCapacity)

/-- Whatever the connections are sent and however they end, in whatever order: buffer sets are reused safely, whatever
happens next passes them on as it should, and all that is seen of the server is what is seen of one whose pool keeps
nothing, where every set is fresh. -/
theorem run_isolated (settings : ServerSettings) (maxPooled maxCapacity : Nat) (events : List Event) :
    (run events (start settings maxPooled maxCapacity)).Isolated settings maxPooled maxCapacity ∧
      (∀ event, Passes maxPooled maxCapacity (run events (start settings maxPooled maxCapacity))
        (step event (run events (start settings maxPooled maxCapacity))) event) ∧
      (run events (start settings maxPooled maxCapacity)).shown = (run events (start settings 0 0)).shown ∧
      (run events (start settings 0 0)).server.buffers.free = [] := by
  have hrecycling := run_recycling settings maxPooled maxCapacity events
  refine ⟨hrecycling.isolated, step_passes hrecycling.kept, run_shown events rfl, ?_⟩
  exact List.eq_nil_of_length_eq_zero (Nat.le_zero.mp (run_recycling settings 0 0 events).kept.few)

/-- A panic in the middle of an answer leaves octets in the buffers. The set comes back into the pool with nothing in
it, and the next connection uses it. -/
theorem run_isolated_reused : ∃ (settings : ServerSettings) (panic : Processor) (events : List Event),
    settings = ⟨.loopback, none, 0, {}⟩ ∧
    (∀ session, panic session =
      .error (.panicked "out of range") (session.mapChannel fun channel => { channel with pending := [1, 2, 3] })) ∧
    events = [.accepted true {}, .counted, .acted 0 .start, .acted 0 (.request panic)] ∧
    (run events (start settings 4 16384)).server.buffers.free = [] ∧
    (run events (start settings 4 16384)).held = [.fresh 0] ∧
    ∃ after, after = step (.acted 0 (.giveBack 16384)) (run events (start settings 4 16384)) ∧
      Passes 4 16384 (run events (start settings 4 16384)) after (.acted 0 (.giveBack 16384)) ∧
      after.server.buffers.free = [.fresh 0] ∧
      (run [.finished 0, .accepted true {}, .counted, .acted 0 .start] after).held = [.fresh 0] := by
  refine ⟨_, fun session =>
    .error (.panicked "out of range") (session.mapChannel fun channel => { channel with pending := [1, 2, 3] }), _,
    rfl, fun _ => rfl, rfl, by decide +kernel, by decide +kernel, _, rfl, ?_, by decide +kernel, by decide +kernel⟩
  exact (run_isolated _ 4 16384 _).2.1 (.acted 0 (.giveBack 16384))

end Hosting
end RpcWire
