import Mathlib.Algebra.GroupWithZero.Nat
import RpcWire.Proofs.Hosting

/-! What a server counts is what has happened on it: who came in, who is being served, what was answered and how
connections ended. -/
namespace RpcWire

/-- What becomes of a socket follows from how many connections were under way: only at the limit is it rejected. -/
def Arrival.Due (maxConnections : Nat) (arrival : Arrival) : Prop :=
  arrival.admission =
    if 0 < maxConnections ∧ arrival.underWay = maxConnections then .rejected
    else if arrival.prepared then .served
    else .unprepared

/-- Below the limit the rule that looks at the count of connections is the one that looks at the connections. -/
theorem ServerCounts.admission_due {maxConnections underWay : Nat} {counts : ServerCounts} (prepared : Bool)
    (hactive : counts.active = underWay) (hbounded : 0 < maxConnections → counts.active ≤ maxConnections) :
    Arrival.Due maxConnections ⟨prepared, underWay, counts.admission maxConnections prepared⟩ := by
  -- The limit is never passed, so that to have reached it is to stand at it.
  have hlimit : (0 < maxConnections ∧ maxConnections ≤ counts.active) ↔
      0 < maxConnections ∧ underWay = maxConnections := by omega
  simp only [Arrival.Due, ServerCounts.admission, hlimit]

/-- Who is served is below the limit. -/
theorem ServerCounts.active_lt_of_served {maxConnections : Nat} {counts : ServerCounts} {prepared : Bool}
    (h : counts.admission maxConnections prepared = .served) (hpositive : 0 < maxConnections) :
    counts.active < maxConnections := by
  rw [ServerCounts.admission] at h
  split at h
  · cases h
  · omega

/-- An end takes a connection off those under way, and adds to the failures what it is. -/
theorem Server.record_ofEnd (server : Server) {session : Option Session} {ending : HandlerEnd}
    (hquiet : session = none → ending.isPanic = false) :
    server.record (.ofEnd session ending) = { server with
      counts := { server.counts with
        active := server.counts.active - 1
        errors := server.counts.errors + if (!session.isSome || ending.isError) = true then 1 else 0
        panics := server.counts.panics + if ending.isPanic = true then 1 else 0 } } := by
  cases session with
  | none => simp [record, ServerCounts.record, ServerEvent.ofEnd, ServerCounts.leave, hquiet rfl]
  | some session =>
    simp only [record, ServerCounts.record, ServerEvent.ofEnd, ServerCounts.finish, Option.isSome_some, Bool.not_true,
      Bool.false_or]
    congr 2 <;> split <;> rfl

namespace Handler

/-- Where no session was made, the end is a fault of the connection. -/
def Faulted (handler : Handler) : Prop :=
  ∀ ending, handler.stage = .ended none ending → ending.isError = true

theorem Faulted.step {act : Act} {handler : Handler} (h : handler.Faulted)
    (hoption : ∀ cause, act = .refuse cause → (ServerError.io cause).isDisconnect = false) (server : Server) :
    (step act handler server).1.Faulted := by
  rw [step.eq_def]
  split
  · next cause _ =>
    rintro _ ⟨⟩
    simp only [HandlerEnd.isError, hoption cause rfl, ServerError.isIdleTimeout, Bool.not_false, Bool.and_self]
  · next hstage =>
    simp only [Session.onBuffers?_eq]
    cases hopen : Session.ofStream? server.settings.session handler.stream with
    | ok session => rintro _ ⟨⟩
    | error err =>
      rintro _ ⟨⟩
      exact Session.isError_of_unopened hopen
  · next process set session hstage =>
    cases process session <;> rintro _ ⟨⟩
  · rintro _ ⟨⟩
  · exact h

theorem isFailed_of_ended {handler : Handler} {session : Option Session} {ending : HandlerEnd}
    (h : handler.stage = .ended session ending) : handler.isFailed = ending.isError := by
  rw [isFailed, ending?, h, Option.any_some]

theorem isServed_of_ended {handler : Handler} {session : Option Session} {ending : HandlerEnd}
    (h : handler.stage = .ended session ending) : handler.isServed = session.isSome := by
  rw [isServed, session?, h]

theorem isPanicked_of_ended {handler : Handler} {session : Option Session} {ending : HandlerEnd}
    (h : handler.stage = .ended session ending) : handler.isPanicked = ending.isPanic := by
  rw [isPanicked, ending?, h, Option.any_some]

end Handler

namespace Hosting

def admissions (hosting : Hosting) : List Admission :=
  hosting.arrivals.map (·.admission)

/-- The counts of a server, and what they count. -/
structure Tallied (settings : ServerSettings) (hosting : Hosting) : Prop where
  active : hosting.server.counts.active = hosting.handlers.length
  bounded : 0 < settings.maxConnections → hosting.server.counts.active ≤ settings.maxConnections
  total : hosting.server.counts.total = hosting.server.counts.active + hosting.finished.length
  served : hosting.admissions.count .served = hosting.server.counts.total
  rejected : hosting.admissions.count .rejected = hosting.server.counts.rejected
  errors : hosting.server.counts.errors =
    hosting.admissions.count .unprepared + hosting.failedAccepts +
      hosting.finished.countP fun handler => !handler.isServed || handler.isFailed
  panics : hosting.server.counts.panics = hosting.finished.countP Handler.isPanicked
  requests : hosting.server.counts.requests = (hosting.everyone.map (Handler.answered settings.session)).sum
  due : ∀ arrival ∈ hosting.arrivals, arrival.Due settings.maxConnections

/-- A socket that is not counted yet: what was found of it still holds, for only its own count can add a connection. -/
structure Deciding (settings : ServerSettings) (hosting : Hosting) (arrival : Arrival) : Prop where
  due : arrival.Due settings.maxConnections
  room : arrival.admission = .served → 0 < settings.maxConnections →
    hosting.server.counts.active < settings.maxConnections

structure Headcount (settings : ServerSettings) (hosting : Hosting) : Prop where
  sound : hosting.Sound settings
  tallied : hosting.Tallied settings
  deciding : ∀ arrival stream, hosting.pending = some (arrival, stream) → hosting.Deciding settings arrival

section
variable {settings : ServerSettings} {hosting after : Hosting}

theorem headcount_start (settings : ServerSettings) (maxPooled maxCapacity : Nat) :
    Headcount settings (start settings maxPooled maxCapacity) :=
  ⟨sound_start .., ⟨rfl, fun _ => Nat.zero_le _, rfl, rfl, rfl, rfl, rfl, rfl, nofun⟩,
    fun _ _ hpending => nomatch hpending⟩

private theorem Tallied.receive {arrival : Arrival} (h : hosting.Tallied settings)
    (hdeciding : hosting.Deciding settings arrival) (stream : Stream) :
    (hosting.receive arrival stream).Tallied settings := by
  obtain ⟨hactive, hbounded, htotal, hserved, hrejected, herrors, hpanics, hrequests, hdue⟩ := h
  have hall : ∀ other ∈ arrival :: hosting.arrivals, other.Due settings.maxConnections := by
    intro other hmem
    rcases List.mem_cons.mp hmem with rfl | hold
    · exact hdeciding.due
    · exact hdue other hold
  have hroom := hdeciding.room
  obtain ⟨prepared, underWay, admission⟩ := arrival
  cases admission with
  | served =>
    refine ⟨congrArg (· + 1) hactive, hroom rfl, ?_, ?_, hrejected, herrors, hpanics, ?_, hall⟩
    · simp only [Hosting.receive, ServerCounts.receive]
      omega
    · simpa [admissions, Hosting.receive, ServerCounts.receive] using hserved
    · simpa [everyone, Hosting.receive, ServerCounts.receive, Handler.answered_nil] using hrequests
  | rejected =>
    refine ⟨hactive, hbounded, htotal, hserved, ?_, herrors, hpanics, hrequests, hall⟩
    simpa [admissions, Hosting.receive, ServerCounts.receive] using hrejected
  | unprepared =>
    refine ⟨hactive, hbounded, htotal, hserved, hrejected, ?_, hpanics, hrequests, hall⟩
    simp only [Hosting.receive, ServerCounts.receive, admissions, List.map_cons, List.count_cons_self, herrors]
    omega

private theorem Tallied.failAccept (h : hosting.Tallied settings) :
    Tallied settings { hosting with
      server := { hosting.server with
        counts := { hosting.server.counts with errors := hosting.server.counts.errors + 1 } }
      failedAccepts := hosting.failedAccepts + 1 } := by
  obtain ⟨hactive, hbounded, htotal, hserved, hrejected, herrors, hpanics, hrequests, hdue⟩ := h
  refine ⟨hactive, hbounded, htotal, hserved, hrejected, ?_, hpanics, hrequests, hdue⟩
  simp only [herrors, admissions]
  omega

/-- What a handler does counts its requests. -/
theorem Tallied.act {before later : List Handler} {handler acted : Handler} {server : Server}
    (h : hosting.Tallied settings) (hhandlers : hosting.handlers = before ++ handler :: later)
    (hcounted : Handler.Counted settings.session handler acted hosting.server server) :
    Tallied settings { hosting with server, handlers := before ++ acted :: later } := by
  obtain ⟨hactive, hbounded, htotal, hserved, hrejected, herrors, hpanics, hrequests, hdue⟩ := h
  obtain ⟨-, hanswered, hothers⟩ := hcounted
  rw [hhandlers] at hactive
  refine ⟨?active, ?bounded, ?total, ?served, ?rejected, ?errors, ?panics, ?requests, hdue⟩
  case active =>
    rw [hothers]
    simpa using hactive
  case requests =>
    simp only [everyone, hhandlers, List.map_append, List.map_cons, List.sum_append, List.sum_cons] at hrequests ⊢
    omega
  -- The other counts are those from before.
  all_goals
    rw [hothers]
    assumption

/-- A handler that finishes was counted, and adds to the failures what its end adds. -/
theorem Tallied.finish {before later : List Handler} {handler : Handler} {session : Option Session}
    {ending : HandlerEnd} (h : hosting.Tallied settings) (hhandlers : hosting.handlers = before ++ handler :: later)
    (hended : handler.stage = .ended session ending) (hquiet : session = none → ending.isPanic = false) :
    Tallied settings { hosting with
      server := hosting.server.record (.ofEnd session ending)
      handlers := before ++ later
      finished := handler :: hosting.finished } := by
  obtain ⟨hactive, hbounded, htotal, hserved, hrejected, herrors, hpanics, hrequests, hdue⟩ := h
  have hone : hosting.server.counts.active = (before ++ later).length + 1 := by
    rw [hactive, hhandlers]
    simp only [List.length_append, List.length_cons]
    omega
  rw [hosting.server.record_ofEnd hquiet]
  refine ⟨?_, ?_, ?_, hserved, hrejected, ?_, ?_, ?_, hdue⟩
  · simp only [hone, Nat.add_sub_cancel]
  · intro hpositive
    exact Nat.le_trans (Nat.sub_le _ _) (hbounded hpositive)
  · simp only [List.length_cons]
    omega
  · simp only [List.countP_cons, Handler.isServed_of_ended hended, Handler.isFailed_of_ended hended, herrors,
      admissions, Nat.add_assoc]
  · simp only [List.countP_cons, Handler.isPanicked_of_ended hended, hpanics]
  · simp only [everyone, hhandlers, List.map_append, List.map_cons, List.sum_append, List.sum_cons] at hrequests ⊢
    omega

/-- While no connection is added, a decision stands. -/
theorem Deciding.of_le {arrival : Arrival} (h : hosting.Deciding settings arrival)
    (hle : after.server.counts.active ≤ hosting.server.counts.active) : after.Deciding settings arrival :=
  ⟨h.due, fun hserved hpositive => Nat.lt_of_le_of_lt hle (h.room hserved hpositive)⟩

private theorem Headcount.moves (h : hosting.Headcount settings) (hmoves : Moves hosting after) :
    after.Headcount settings := by
  have hsound := h.sound.moves hmoves
  cases hmoves with
  | stays => exact h
  | accepted prepared stream =>
    refine ⟨hsound, { h.tallied with }, ?_⟩
    intro arrival other hpending
    cases hpending
    rw [h.sound.stays]
    exact ⟨ServerCounts.admission_due prepared h.tallied.active h.tallied.bounded, ServerCounts.active_lt_of_served⟩
  | counted arrival stream hpending =>
    exact ⟨hsound, h.tallied.receive (h.deciding arrival stream hpending) stream,
      fun _ _ hnone => nomatch hnone⟩
  | acceptFailed =>
    exact ⟨hsound, h.tallied.failAccept, fun arrival stream hpending =>
      (h.deciding arrival stream hpending).of_le (Nat.le_refl _)⟩
  | acted before later handler acted server hhandlers hmoves =>
    have hcounted := h.sound.counted hhandlers hmoves
    refine ⟨hsound, h.tallied.act hhandlers hcounted, ?_⟩
    intro arrival stream hpending
    refine (h.deciding arrival stream hpending).of_le (Nat.le_of_eq ?_)
    rw [hcounted.others]
  | finished before later handler session ending hhandlers hended =>
    have hends := h.sound.faithful handler (by simp [everyone, hhandlers])
    rw [Handler.Faithful, hended] at hends
    have hquiet : session = none → ending.isPanic = false := by
      rintro rfl
      exact hends.2
    refine ⟨hsound, h.tallied.finish hhandlers hended hquiet, fun arrival stream hpending =>
      (h.deciding arrival stream hpending).of_le ?_⟩
    rw [hosting.server.record_ofEnd hquiet]
    exact Nat.sub_le _ _

/-- What holds of the counts at every point, if no option of a socket is refused because the caller has left. -/
structure Accounted (settings : ServerSettings) (hosting : Hosting) : Prop extends Tallied settings hosting where
  /-- Each socket that came in is counted once. -/
  once : hosting.server.counts.total + hosting.server.counts.rejected + hosting.admissions.count .unprepared =
    hosting.arrivals.length
  /-- A handler that is to finish is still counted. -/
  present : ∀ handler ∈ hosting.handlers, 0 < hosting.server.counts.active
  /-- The requests that are counted as answered are those that led each handler to where it is. -/
  answered : ∀ handler ∈ hosting.everyone, ∀ session, handler.session? = some session →
    Session.serveFresh settings.session handler.stream handler.requests =
      .ok (handler.answered settings.session, handler.ending?, session)
  /-- A handler that has finished came to an end, which was a fault if no session could be made. -/
  ended : ∀ handler ∈ hosting.finished, ∃ ending, handler.ending? = some ending ∧
    (handler.isServed = false → ending.isError = true)
  faults : hosting.server.counts.errors =
    hosting.admissions.count .unprepared + hosting.failedAccepts + hosting.finished.countP Handler.isFailed

theorem count_admissions (admissions : List Admission) :
    admissions.count .served + admissions.count .rejected + admissions.count .unprepared = admissions.length := by
  induction admissions with
  | nil => rfl
  | cons first rest ih =>
    cases first <;> simp <;> omega

/-- Who is served or was served was so before an event, or has just come in, or has done what the event says. -/
theorem everyone_step (event : Event) {handler : Handler} (h : handler ∈ (step event hosting).everyone) :
    handler ∈ hosting.everyone ∨ handler.stage = .starting ∨
      ∃ place act earlier, event = .acted place act ∧ earlier ∈ hosting.everyone ∧
        handler = (earlier.step act hosting.server).1 := by
  cases event with
  | accepted prepared stream =>
    simp only [step] at h
    split at h <;> exact .inl h
  | counted =>
    simp only [step] at h
    split at h
    · exact .inl h
    · next arrival stream hpending =>
      simp only [receive, everyone] at h
      split at h
      · rcases List.mem_cons.mp h with rfl | hold
        · exact .inr (.inl rfl)
        · exact .inl hold
      all_goals exact .inl h
  | acceptFailed =>
    simp only [step] at h
    split at h <;> exact .inl h
  | acted place act =>
    simp only [step] at h
    split at h
    · exact .inl h
    · next earlier hplace =>
      rcases List.mem_append.mp h with hacted | hold
      · rcases List.mem_or_eq_of_mem_set hacted with hother | rfl
        · exact .inl (List.mem_append_left _ hother)
        · exact .inr (.inr ⟨place, act, earlier, rfl, List.mem_append_left _ (List.mem_of_getElem? hplace), rfl⟩)
      · exact .inl (List.mem_append_right _ hold)
  | finished place =>
    simp only [step] at h
    split at h
    · exact .inl h
    · next ended hplace =>
      split at h
      · refine .inl ?_
        rcases List.mem_append.mp h with hother | hfinished
        · exact List.mem_append_left _ (List.mem_of_mem_eraseIdx hother)
        · rcases List.mem_cons.mp hfinished with rfl | hold
          · exact List.mem_append_left _ (List.mem_of_getElem? hplace)
          · exact List.mem_append_right _ hold
      all_goals exact .inl h

theorem run_faulted {events : List Event}
    (hoptions : ∀ place cause, .acted place (.refuse cause) ∈ events → (ServerError.io cause).isDisconnect = false)
    (h : ∀ handler ∈ hosting.everyone, handler.Faulted) :
    ∀ handler ∈ (run events hosting).everyone, handler.Faulted := by
  induction events generalizing hosting with
  | nil => exact h
  | cons event events ih =>
    refine ih (fun place cause hmem => hoptions place cause (List.mem_cons_of_mem _ hmem)) fun handler hmem => ?_
    rcases everyone_step event hmem with hold | hstarting | ⟨place, act, earlier, rfl, hearlier, rfl⟩
    · exact h handler hold
    · intro ending hended
      rw [hstarting] at hended
      cases hended
    · refine (h earlier hearlier).step (fun cause hact => hoptions place cause ?_) hosting.server
      rw [← hact]
      exact List.mem_cons_self

private theorem Headcount.accounted (h : hosting.Headcount settings)
    (hfaulted : ∀ handler ∈ hosting.everyone, handler.Faulted) : hosting.Accounted settings := by
  obtain ⟨⟨-, hfaithful, hended⟩, htallied, -⟩ := h
  have hunserved : ∀ handler ∈ hosting.finished, ∃ ending, handler.ending? = some ending ∧
      (handler.isServed = false → ending.isError = true) := by
    intro handler hmem
    obtain ⟨session, ending, hstage⟩ := hended handler hmem
    refine ⟨ending, by rw [Handler.ending?, hstage], fun hnone => ?_⟩
    rw [Handler.isServed_of_ended hstage, Option.isSome_eq_false_iff, Option.isNone_iff_eq_none] at hnone
    exact hfaulted handler (List.mem_append_right _ hmem) ending (hnone ▸ hstage)
  refine ⟨htallied, ?once, ?present, fun handler hmem _ => (hfaithful handler hmem).of_session, hunserved, ?faults⟩
  case once => rw [← htallied.served, ← htallied.rejected, count_admissions, admissions, List.length_map]
  case present =>
    intro handler hmem
    rw [htallied.active]
    exact List.length_pos_of_mem hmem
  case faults =>
    rw [htallied.errors]
    congr 1
    refine List.countP_congr fun handler hmem => ?_
    obtain ⟨ending, hends, hfault⟩ := hunserved handler hmem
    rw [Handler.isFailed, hends, Option.any_some]
    cases hserved : handler.isServed with
    | true => simp
    | false => simp [hfault hserved]

end

/-- What every event keeps holds after every run, whatever made a handler end before it served. -/
theorem run_headcount (settings : ServerSettings) (maxPooled maxCapacity : Nat) (events : List Event) :
    (run events (start settings maxPooled maxCapacity)).Headcount settings :=
  run_induction (fun _ _ => Headcount.moves) events (headcount_start settings maxPooled maxCapacity)

/-- Whoever comes in, whatever is asked and however connections end, in whatever order: the counts of a server are what
has happened on it. Setting an option of a socket fails for the option or the socket, not because the caller left. -/
theorem run_accounted (settings : ServerSettings) (maxPooled maxCapacity : Nat) (events : List Event)
    (hoptions : ∀ place cause, Event.acted place (.refuse cause) ∈ events →
      (ServerError.io cause).isDisconnect = false) :
    (run events (start settings maxPooled maxCapacity)).Accounted settings :=
  (run_headcount settings maxPooled maxCapacity events).accounted
    (run_faulted hoptions fun _ hmem => absurd hmem List.not_mem_nil)

/-- With two connections allowed, a third is rejected while two are served. One of these ends in a panic, and for the
other an option of the socket could not be set. -/
theorem run_accounted_refusal : ∃ (settings : ServerSettings) (refusal : IoError) (panic : Processor)
    (events : List Event), settings = ⟨.loopback, none, 2, {}⟩ ∧
    refusal = ⟨.other "InvalidInput", "Invalid argument (os error 22)"⟩ ∧
    (∀ session, panic session = .error (.panicked "out of range") session) ∧
    events = [.accepted true {}, .counted, .acted 0 .start, .accepted true {}, .counted, .acted 0 (.refuse refusal),
      .accepted true {}, .counted, .acted 1 (.request panic), .acted 1 (.giveBack 16384), .finished 0, .finished 0] ∧
    (∀ place cause, Event.acted place (.refuse cause) ∈ events → (ServerError.io cause).isDisconnect = false) ∧
    (run events (start settings 4 16384)).Accounted settings ∧
    (run events (start settings 4 16384)).server.counts = { total := 2, rejected := 1, errors := 1, panics := 1 } := by
  refine ⟨_, _, fun session => .error (.panicked "out of range") session, _, rfl, rfl, fun _ => rfl, rfl, ?_⟩
  have hoptions : ∀ place cause, Event.acted place (.refuse cause) ∈
      [Event.accepted true {}, .counted, .acted 0 .start, .accepted true {}, .counted,
        .acted 0 (.refuse ⟨.other "InvalidInput", "Invalid argument (os error 22)"⟩), .accepted true {}, .counted,
        .acted 1 (.request fun session => .error (.panicked "out of range") session), .acted 1 (.giveBack 16384),
        .finished 0, .finished 0] →
      (ServerError.io cause).isDisconnect = false := by
    intro place cause hmem
    simp only [List.mem_cons, List.not_mem_nil, reduceCtorEq, Event.acted.injEq, Handler.Act.refuse.injEq, false_or,
      or_false, and_false] at hmem
    obtain ⟨-, rfl⟩ := hmem
    rfl
  exact ⟨hoptions, run_accounted _ 4 16384 _ hoptions, by decide +kernel⟩

end Hosting
end RpcWire
