import RpcWire.Proofs.Hosting

/-! One connection after the other: a server that serves them so is one of the runs of a server with many handlers. -/
namespace RpcWire

/-- The same processor for every request is a list of that processor. -/
theorem Session.serveEach_replicate (process : Processor) (most : Nat) (session : Session) (served : Nat) :
    serveEach (.replicate most process) session served = serveWithin process most session served := by
  induction most generalizing session served with
  | zero => rfl
  | succ most ih =>
    rw [List.replicate_succ, serveEach, serveWithin]
    cases process session with
    | ok _ after => exact ih after (served + 1)
    | error ending after => rfl

section
variable {config : SessionConfig} {stream : Stream}

theorem handle_unmade {err : WireError} (h : Session.ofStream? config stream = .error err) (process : Processor)
    (most capacity : Nat) (pool : BufferPool) :
    handle config process most capacity stream pool =
      ⟨0, some (.failed (.wire err)), stream.written, pool.get.2⟩ := by
  simp only [handle, Session.onBuffers?_eq, h]

/-- A connection is served as a session with fresh buffers is, whatever set the pool has for it. -/
theorem handle_made {process : Processor} {most : Nat} {outcome : Nat × Option HandlerEnd × Session}
    (h : Session.serveFresh config stream (.replicate most process) = .ok outcome) (capacity : Nat)
    (pool : BufferPool) :
    handle config process most capacity stream pool =
      ⟨outcome.1, outcome.2.1, outcome.2.2.stream.written,
        pool.get.2.put (outcome.2.2.buffers pool.get.1 capacity)⟩ := by
  rw [Session.serveFresh] at h
  cases hopen : Session.ofStream? config stream with
  | error err =>
    rw [hopen] at h
    cases h
  | ok session =>
    rw [hopen] at h
    have houtcome : outcome = Session.serveWithin process most session 0 :=
      (Except.ok.inj h).symm.trans (Session.serveEach_replicate process most session 0)
    simp only [handle, Session.onBuffers?_eq, hopen, houtcome]

end

/-- To end with a fault of the connection counts as to end before the service began. -/
theorem ServerCounts.leave_eq_finish {err : ServerError} (h : (HandlerEnd.failed err).isError = true)
    (counts : ServerCounts) : counts.leave = counts.finish (.failed err) := by
  rw [leave, finish, if_pos h]
  rfl

namespace Hosting

section
variable {hosting : Hosting} {stream : Stream} {set : BufferSet} {session : Session} {requests : List Processor}
  {givenBack : Nat} {others : List Handler}

/-- All that happens for a connection that was admitted and is served alone, with so many requests at most. -/
def visit (process : Processor) (most capacity : Nat) : List Event :=
  .acted 0 .start :: .replicate most (.acted 0 (.request process)) ++ [.acted 0 (.giveBack capacity), .finished 0]

theorem run_append (first second : List Event) (hosting : Hosting) :
    run (first ++ second) hosting = run second (run first hosting) :=
  List.foldl_append ..

/-- No request is made of a handler that has stopped. -/
theorem run_requests_stopped {stage : Stage} (process : Processor) (most : Nat)
    (hstage : ∀ set session, stage ≠ .serving set session)
    (hhandlers : hosting.handlers = ⟨stream, stage, requests, givenBack⟩ :: others) :
    run (.replicate most (.acted 0 (.request process))) hosting = hosting := by
  have hstep : step (.acted 0 (.request process)) hosting = hosting := by
    obtain ⟨server, pending, handlers, arrivals, failedAccepts, finished⟩ := hosting
    cases hhandlers
    cases stage with
    | serving set session => exact absurd rfl (hstage set session)
    | _ => rfl
  induction most with
  | zero => rfl
  | succ most ih =>
    rw [List.replicate_succ, run, List.foldl_cons, hstep]
    exact ih

def stageAfter (set : BufferSet) (outcome : Nat × Option HandlerEnd × Session) : Stage :=
  match outcome with
  | (_, none, session) => .serving set session
  | (_, some ending, session) => .stopped set session ending

/-- Requests of one connection, one after the other, are what the loop over them does. -/
theorem run_requests (process : Processor) (most served before : Nat)
    (hhandlers : hosting.handlers = ⟨stream, .serving set session, requests, givenBack⟩ :: others)
    (hbefore : hosting.server.counts.requests = before + served) :
    let outcome := Session.serveEach (.replicate most process) session served
    ∃ asked, run (.replicate most (.acted 0 (.request process))) hosting =
      { hosting with
        server := { hosting.server with counts := { hosting.server.counts with requests := before + outcome.1 } }
        handlers := ⟨stream, stageAfter set outcome, asked, givenBack⟩ :: others } := by
  -- On the requests still allowed: each that is answered leaves the same situation with one more counted.
  induction most generalizing hosting session served requests with
  | zero =>
    refine ⟨requests, ?_⟩
    obtain ⟨server, pending, handlers, arrivals, failedAccepts, finished⟩ := hosting
    cases hhandlers
    simp only [List.replicate_zero, Session.serveEach, ← hbefore]
    rfl
  | succ most ih =>
    rw [List.replicate_succ, List.replicate_succ, Session.serveEach]
    cases hprocess : process session with
    | ok _ after =>
      have hstep : step (.acted 0 (.request process)) hosting = { hosting with
          server := hosting.server.record .answered
          handlers := ⟨stream, .serving set after, requests ++ [process], givenBack⟩ :: others } := by
        simp only [step, hhandlers, List.getElem?_cons_zero, Handler.step, hprocess, List.set_cons_zero]
      have hserving : (step (.acted 0 (.request process)) hosting).handlers =
          ⟨stream, .serving set after, requests ++ [process], givenBack⟩ :: others := by rw [hstep]
      have hcounts : (step (.acted 0 (.request process)) hosting).server.counts.requests = before + (served + 1) := by
        rw [hstep, ← Nat.add_assoc, ← hbefore]
        rfl
      obtain ⟨asked, hrun⟩ := ih (served + 1) hserving hcounts
      refine ⟨asked, ?_⟩
      rw [run, List.foldl_cons]
      exact hrun.trans (by rw [hstep]; rfl)
    | error ending after =>
      have hstep : step (.acted 0 (.request process)) hosting = { hosting with
          handlers := ⟨stream, .stopped set after ending, requests ++ [process], givenBack⟩ :: others } := by
        simp only [step, hhandlers, List.getElem?_cons_zero, Handler.step, hprocess, List.set_cons_zero]
      refine ⟨requests ++ [process], ?_⟩
      rw [run, List.foldl_cons, hstep]
      refine (run_requests_stopped process most (fun _ _ h => Stage.noConfusion h) rfl).trans ?_
      simp only [← hbefore]
      rfl

/-- A connection that is served alone is a run in which no other handler does anything. -/
theorem run_visit (process : Processor) (most capacity : Nat) {ending : HandlerEnd}
    (hhandlers : hosting.handlers = { stream } :: others)
    (hending : (handle hosting.server.settings.session process most capacity stream hosting.server.buffers).ending =
      some ending) :
    let handled := handle hosting.server.settings.session process most capacity stream hosting.server.buffers
    let counts := hosting.server.counts
    ∃ handler : Handler, handler.stream = stream ∧ handler.ending? = some ending ∧ handler.written = handled.written ∧
      run (visit process most capacity) hosting =
        { hosting with
          server := { hosting.server with
            counts := { counts with requests := counts.requests + handled.served }.finish ending
            buffers := handled.pool }
          handlers := others
          finished := handler :: hosting.finished } := by
  rw [visit, List.cons_append, run, List.foldl_cons, ← run, run_append]
  cases hopen : Session.ofStream? hosting.server.settings.session stream with
  | error err =>
    rw [handle_unmade hopen] at hending ⊢
    cases hending
    have hstep : step (.acted 0 .start) hosting = { hosting with
        server := { hosting.server with buffers := hosting.server.buffers.get.2 }
        handlers := ⟨stream, .ended none (.failed (.wire err)), [], 0⟩ :: others } := by
      simp only [step, hhandlers, List.getElem?_cons_zero, Handler.step, Session.onBuffers?_eq, hopen,
        List.set_cons_zero]
    rw [hstep, run_requests_stopped process most (fun _ _ h => Stage.noConfusion h) rfl]
    refine ⟨⟨stream, .ended none (.failed (.wire err)), [], 0⟩, rfl, rfl, rfl, ?_⟩
    rw [← ServerCounts.leave_eq_finish (Session.isError_of_unopened hopen)]
    rfl
  | ok session =>
    have hfresh : Session.serveFresh hosting.server.settings.session stream (.replicate most process) =
        .ok (Session.serveEach (.replicate most process) session 0) := by
      rw [Session.serveFresh, hopen]
      rfl
    rw [handle_made hfresh] at hending ⊢
    have hstep : step (.acted 0 .start) hosting = { hosting with
        server := { hosting.server with buffers := hosting.server.buffers.get.2 }
        handlers := ⟨stream, .serving hosting.server.buffers.get.1 session, [], 0⟩ :: others } := by
      simp only [step, hhandlers, List.getElem?_cons_zero, Handler.step, Session.onBuffers?_eq, hopen,
        List.set_cons_zero]
    have hserving : (step (.acted 0 .start) hosting).handlers =
        ⟨stream, .serving hosting.server.buffers.get.1 session, [], 0⟩ :: others := by rw [hstep]
    have hcounts : (step (.acted 0 .start) hosting).server.counts.requests = hosting.server.counts.requests + 0 := by
      rw [hstep]
      rfl
    obtain ⟨asked, hrun⟩ := run_requests process most 0 hosting.server.counts.requests hserving hcounts
    rw [hrun, hstep]
    generalize Session.serveEach (.replicate most process) session 0 = outcome at hending ⊢
    obtain ⟨served, _, last⟩ := outcome
    cases hending
    exact ⟨_, rfl, rfl, rfl, rfl⟩

theorem run_admitted (hpending : hosting.pending = none) (prepared : Bool) (stream : Stream) :
    let admission := hosting.server.counts.admission hosting.server.settings.maxConnections prepared
    run [.accepted prepared stream, .counted] hosting =
      hosting.receive ⟨prepared, hosting.handlers.length, admission⟩ stream := by
  simp only [run, List.foldl_cons, List.foldl_nil, step, hpending]
  rfl

/-- What a server does for a connection that it serves to the end, where nothing else happens meanwhile. -/
theorem run_serve (process : Processor) (most capacity : Nat) {handled : Handled} {server : Server}
    {ending : HandlerEnd} (hpending : hosting.pending = none)
    (hserve : hosting.server.serve process most capacity true stream = (some handled, server))
    (hending : handled.ending = some ending) :
    ∃ handler : Handler, handler.stream = stream ∧ handler.ending? = some ending ∧ handler.written = handled.written ∧
      run ([.accepted true stream, .counted] ++ visit process most capacity) hosting =
        { hosting with
          server
          arrivals := ⟨true, hosting.handlers.length, .served⟩ :: hosting.arrivals
          finished := handler :: hosting.finished } := by
  rw [Server.serve] at hserve
  rw [run_append, run_admitted hpending]
  cases hadmission : hosting.server.counts.admission hosting.server.settings.maxConnections true with
  | rejected =>
    rw [hadmission] at hserve
    cases hserve
  | unprepared =>
    rw [hadmission] at hserve
    cases hserve
  | served =>
    rw [hadmission] at hserve
    obtain ⟨hhandled, hserver⟩ := Prod.mk.inj hserve
    cases hhandled
    have hhandlers : (hosting.receive ⟨true, hosting.handlers.length, .served⟩ stream).handlers =
      { stream } :: hosting.handlers := rfl
    obtain ⟨handler, hstream, hends, hwritten, hrun⟩ := run_visit process most capacity hhandlers hending
    refine ⟨handler, hstream, hends, hwritten, hrun.trans ?_⟩
    rw [← hserver, hending]
    simp only [Server.record, ServerCounts.record, hadmission, receive, hpending]

end

end Hosting
end RpcWire
