import RpcWire.Client
import RpcWire.Proofs.Exchanging
import RpcWire.Proofs.Layout.Records
import RpcWire.Proofs.Pooling

/-! A call is made once more only if its first request did not go out whole, so no stream gets it a second time. -/
namespace RpcWire

namespace Client
variable {α : Type} {address : SocketAddress} {context : CallContext} {circumstances : Circumstances} {pool : Pool}
  {call : Call α} {connection : Connection}

def exchanged (address : SocketAddress) (context : CallContext) (circumstances : Circumstances) (pool : Pool) :
    Option Connection :=
  match context.check circumstances.begun circumstances.cancelled, connect circumstances address pool,
    circumstances.unprepared with
  | .ok (), (.ok connection, _), none => some connection
  | _, _, _ => none

def inContext (context : CallContext) (call : Call α) : Call α := { call with headers := context.headers }

def sends (call : Call α) (connection : Connection) : Bool :=
  match Connection.sendRequest call connection with
  | .ok _ _ => true
  | .error _ _ => false

/-- A caller who watches the client sees the exchange. -/
theorem exchange_attempt (address : SocketAddress) (context : CallContext) (circumstances : Circumstances)
    (call : Call α) (pool : Pool) :
    (attempt address context circumstances call pool).exchange =
      (exchanged address context circumstances pool).map fun connection =>
        ⟨connection.reused, sends (inContext context call) connection⟩ := by
  rw [attempt, exchanged]
  cases context.check circumstances.begun circumstances.cancelled with
  | error err => rfl
  | ok _ =>
    rcases connect circumstances address pool with ⟨err | connection, after⟩
    · rfl
    · simp only [run]
      cases circumstances.unprepared with
      | some cause => rfl
      | none =>
        cases circumstances.crash with
        | some text => rfl
        | none => rfl

private theorem isRetryable_iff {err : ClientError} : err.isRetryable = true ↔ err = .peerClosed := by
  cases err <;> simp [ClientError.isRetryable]

private theorem retries_iff {settings : ClientSettings} {attempt : Attempt α} :
    retries settings attempt = true ↔
      settings.retry = true ∧ attempt.reused = true ∧ attempt.result = .error .peerClosed := by
  rw [retries, Bool.and_eq_true, Bool.and_eq_true, and_assoc]
  cases attempt.result with
  | ok reply => simp
  | error err => simp [isRetryable_iff]

/-- A run that fails with the other side gone is one whose exchange does. -/
theorem exchange_of_run (h : (run circumstances call connection pool).result = .error .peerClosed) :
    circumstances.unprepared = none ∧
      ∃ after, Connection.exchange circumstances.peer call connection = .error .peerClosed after := by
  rw [run] at h
  cases hunprepared : circumstances.unprepared with
  | some cause =>
    rw [hunprepared] at h
    cases h
  | none =>
    refine ⟨rfl, ?_⟩
    rw [hunprepared] at h
    cases hstop : circumstances.stop with
    | some stop =>
      rw [hstop] at h
      cases hcrash : circumstances.crash <;> cases stop <;> rw [hcrash] at h <;> cases h
    | none =>
      rw [hstop] at h
      cases hcrash : circumstances.crash with
      | some text =>
        rw [hcrash] at h
        cases h
      | none =>
        rw [hcrash] at h
        cases hexchange : Connection.exchange circumstances.peer call connection with
        | ok reply after =>
          rw [hexchange] at h
          cases h
        | error err after =>
          rw [hexchange] at h
          cases h
          exact ⟨after, rfl⟩

private theorem reused_run (circumstances : Circumstances) (call : Call α) (connection : Connection)
    (pool : Pool) :
    (run circumstances call connection pool).reused = connection.reused := by
  rw [run.eq_def]
  cases circumstances.unprepared with
  | some cause => rfl
  | none => cases circumstances.crash <;> rfl

/-- An attempt that may be repeated made an exchange on a connection that lay idle, and the exchange found the
other side gone. -/
theorem retries_attempt {settings : ClientSettings}
    (h : retries settings (attempt address context circumstances call pool) = true) :
    settings.retry = true ∧ ∃ connection after, exchanged address context circumstances pool = some connection ∧
      connection.reused = true ∧
      Connection.exchange circumstances.peer (inContext context call) connection = .error .peerClosed after := by
  obtain ⟨hretry, hreused, hresult⟩ := retries_iff.mp h
  refine ⟨hretry, ?_⟩
  rw [attempt] at hreused hresult
  rw [exchanged]
  cases hcheck : context.check circumstances.begun circumstances.cancelled with
  | error err =>
    rw [hcheck] at hreused
    cases hreused
  | ok _ =>
    rw [hcheck] at hreused hresult
    rcases hconnect : connect circumstances address pool with ⟨err | connection, after⟩
    · rw [hconnect] at hreused
      cases hreused
    · rw [hconnect] at hreused hresult
      obtain ⟨hunprepared, closed, hexchange⟩ := exchange_of_run hresult
      rw [hunprepared]
      exact ⟨connection, closed, rfl, (reused_run ..).symm.trans hreused, hexchange⟩

/-- With no idle connection left, an attempt opens one. -/
theorem reused_of_connect {after : Pool} (hidle : pool.idle address = [])
    (h : connect circumstances address pool = (.ok connection, after)) : connection.reused = false := by
  have hslots : ((pool.slots address).getD {}).idle = [] := hidle
  simp only [connect, Pool.take, hslots, Slots.takeIdle] at h
  split at h
  · next htake =>
    split at htake
    · cases htake
    · split at htake <;> cases htake
  · next granted _ =>
    rcases granted.opened_cases address circumstances.openedAt circumstances.dialed with
      ⟨made, hopened, -, -, hreused⟩ | ⟨err, hopened⟩
    · rw [hopened] at h
      cases h
      exact hreused
    · rw [hopened] at h
      cases h
  · cases h

private theorem connect_of_exchanged (h : exchanged address context circumstances pool = some connection) :
    ∃ after, connect circumstances address pool = (.ok connection, after) := by
  rw [exchanged] at h
  split at h
  · next hconnect _ =>
    cases h
    exact ⟨_, hconnect⟩
  · cases h

/-- The context of both attempts, which has the usual deadline if it has none of its own. -/
def timed (client : Client) (context : CallContext) (first : Circumstances) : CallContext :=
  context.withUsualTime first.begun client.settings.usualTime

def firstAttempt (client : Client) (context : CallContext) (first : Circumstances) (call : Call α) : Attempt α :=
  attempt client.settings.address (client.timed context first) first call client.pool

def clearedPool (client : Client) (context : CallContext) (first : Circumstances) (call : Call α) : Pool :=
  ((client.firstAttempt context first call).pool.clearIdle client.settings.address).2

def exchanges (client : Client) (context : CallContext) (first second : Circumstances) (call : Call α) :
    List Connection :=
  (exchanged client.settings.address (client.timed context first) first client.pool).toList ++
    if retries client.settings (client.firstAttempt context first call) then
      (exchanged client.settings.address (client.timed context first) second
        (second.others (client.clearedPool context first call))).toList
    else []

/-- What makes it safe that a call may be made once more. -/
structure AtMostOnce (client : Client) (context : CallContext) (first second : Circumstances) (call : Call α) :
    Prop where
  /-- No more than two exchanges are made. -/
  few : (client.exchanges context first second call).length ≤ 2
  /-- They are the ones that a caller who watches sees. -/
  seen : ((client.attempts context first second call).1 ++ [(client.attempts context first second call).2]).filterMap
      (·.exchange) =
    (client.exchanges context first second call).map fun connection =>
      ⟨connection.reused, sends (inContext context call) connection⟩
  /-- A second attempt follows only an exchange on a connection that lay idle, which found the other side gone. -/
  repeated : (client.attempts context first second call).1 ≠ [] → client.settings.retry = true ∧
    ∃ connection after, (client.exchanges context first second call).head? = some connection ∧
      connection.reused = true ∧
      Connection.exchange first.peer (inContext context call) connection = .error .peerClosed after
  /-- An exchange finds the other side gone before it writes, or by a failure of the stream while it writes. -/
  found : ∀ peer connection after,
    Connection.exchange peer (inContext context call) connection = .error .peerClosed after ↔
      ∃ middle, Connection.FoundClosed (inContext context call) connection middle ∧ after = middle.markFailed
  /-- The stream of such an exchange lacks the end of the request. -/
  partly : Gathers call.arguments → ∀ peer connection after,
    Connection.exchange peer (inContext context call) connection = .error .peerClosed after →
      ∀ whole, connection.request? (inContext context call) = some whole →
        ∃ rest, rest ≠ [] ∧ whole = connection.taken (inContext context call) ++ rest
  /-- No more than one request is written without a failure. -/
  once : (client.exchanges context first second call).countP (sends (inContext context call)) ≤ 1
  /-- No more than one stream takes the whole request. -/
  whole : Gathers call.arguments → (client.exchanges context first second call).countP
    (fun connection => connection.HandsOver (inContext context call)) ≤ 1
  /-- What comes of a request that was written, or of a connection that never lay idle, is the result of the call. -/
  returned : ∀ connection, (client.exchanges context first second call).head? = some connection →
    sends (inContext context call) connection = true ∨ connection.reused = false →
      client.attempts context first second call = ([], client.firstAttempt context first call) ∧
        (client.invoke context first second call).1 = (client.firstAttempt context first call).result
  /-- Before a second attempt all idle connections to the address are closed, and only those. It is made on a new
  connection unless another caller has given one back meanwhile. -/
  cleared : (client.attempts context first second call).1 ≠ [] →
    client.attempts context first second call = ([client.firstAttempt context first call],
      attempt client.settings.address (client.timed context first) second call
        (second.others (client.clearedPool context first call))) ∧
    (client.clearedPool context first call).idle client.settings.address = [] ∧
    (client.clearedPool context first call).active client.settings.address =
      (client.firstAttempt context first call).pool.active client.settings.address -
        ((client.firstAttempt context first call).pool.idle client.settings.address).length ∧
    (∀ other, other ≠ client.settings.address → (client.clearedPool context first call).slots other =
      (client.firstAttempt context first call).pool.slots other) ∧
    ((second.others (client.clearedPool context first call)).idle client.settings.address = [] →
      ∀ connection ∈ (client.exchanges context first second call).tail, connection.reused = false)

section
variable {client : Client} {first : Circumstances} (second : Circumstances)

/-- What has been repeated is not repeated again. -/
theorem attemptsFrom_retried (settings : ClientSettings) (context : CallContext)
    (circumstances : Bool → Circumstances) (call : Call α) (pool : Pool) :
    attemptsFrom settings context circumstances call true pool =
      ([], attempt settings.address context (circumstances true) call pool) := by
  rw [attemptsFrom]
  exact dif_neg Bool.false_ne_true

private theorem attempts_of_retries
    (h : retries client.settings (client.firstAttempt context first call) = true) :
    client.attempts context first second call = ([client.firstAttempt context first call],
      attempt client.settings.address (client.timed context first) second call
        (second.others (client.clearedPool context first call))) := by
  rw [attempts, attemptsFrom]
  refine (dif_pos h).trans ?_
  simp only [attemptsFrom_retried]
  rfl

private theorem attempts_of_not_retries
    (h : ¬retries client.settings (client.firstAttempt context first call) = true) :
    client.attempts context first second call = ([], client.firstAttempt context first call) := by
  rw [attempts, attemptsFrom]
  exact dif_neg h

/-- The first exchange of a call that is made once more found the other side gone on a connection that lay idle. -/
theorem exchanges_of_retries
    (h : retries client.settings (client.firstAttempt context first call) = true) :
    ∃ connection after,
      exchanged client.settings.address (client.timed context first) first client.pool = some connection ∧
      connection.reused = true ∧
      Connection.exchange first.peer (inContext context call) connection = .error .peerClosed after ∧
      client.exchanges context first second call = connection ::
        (exchanged client.settings.address (client.timed context first) second
          (second.others (client.clearedPool context first call))).toList := by
  obtain ⟨-, connection, after, hconnection, hreused, hexchange⟩ := retries_attempt h
  refine ⟨connection, after, hconnection, hreused, hexchange, ?_⟩
  have hfirst : exchanged client.settings.address (client.timed context first) first client.pool = some connection :=
    hconnection
  rw [exchanges, if_pos h, hfirst]
  rfl

private theorem exchanges_of_not_retries
    (h : ¬retries client.settings (client.firstAttempt context first call) = true) :
    client.exchanges context first second call =
      (exchanged client.settings.address (client.timed context first) first client.pool).toList := by
  rw [exchanges, if_neg h, List.append_nil]

end

/-- The exchanges of a call are the ones that a caller who watches sees. -/
theorem exchange_attempts (client : Client) (context : CallContext) (first second : Circumstances) (call : Call α) :
    ((client.attempts context first second call).1 ++ [(client.attempts context first second call).2]).filterMap
        (·.exchange) =
      (client.exchanges context first second call).map fun connection =>
        ⟨connection.reused, sends (inContext context call) connection⟩ := by
  have hone : (client.firstAttempt context first call).exchange = _ :=
    exchange_attempt client.settings.address (client.timed context first) first call client.pool
  by_cases h : retries client.settings (client.firstAttempt context first call) = true
  · obtain ⟨connection, after, hconnection, -, -, hexchanges⟩ := exchanges_of_retries second h
    have htwo := exchange_attempt client.settings.address (client.timed context first) second call
      (second.others (client.clearedPool context first call))
    rw [attempts_of_retries second h, hexchanges]
    rw [hconnection] at hone
    simp only [List.cons_append, List.nil_append, List.filterMap_cons, List.filterMap_nil, hone, htwo, Option.map_some,
      List.map_cons]
    cases exchanged client.settings.address (client.timed context first) second
      (second.others (client.clearedPool context first call)) <;> rfl
  · rw [attempts_of_not_retries second h, exchanges_of_not_retries second h]
    simp only [List.nil_append, List.filterMap_cons, List.filterMap_nil, hone]
    cases exchanged client.settings.address (client.timed context first) first client.pool <;> rfl

private theorem sendRequest_of_peerClosed {peer : Stream → Stream} {after : Connection}
    (h : Connection.exchange peer call connection = .error .peerClosed after) :
    ∃ middle, Connection.sendRequest call connection = .error .peerClosed middle := by
  obtain ⟨middle, hfound, -⟩ := (Connection.exchange_peerClosed_iff peer).mp h
  exact ⟨middle, Connection.sendRequest_peerClosed_iff.mpr hfound⟩

private theorem not_sends_of_peerClosed {peer : Stream → Stream} {after : Connection}
    (h : Connection.exchange peer call connection = .error .peerClosed after) : ¬sends call connection = true := by
  obtain ⟨middle, hsend⟩ := sendRequest_of_peerClosed h
  rw [sends, hsend]
  exact Bool.false_ne_true

private theorem handsOver_iff_sends (hgathers : Gathers call.arguments) :
    connection.HandsOver call ↔ sends call connection = true := by
  rw [Connection.handsOver_iff_sent hgathers, sends]
  cases Connection.sendRequest call connection <;> simp

private theorem length_exchanges_le (client : Client) (context : CallContext) (first second : Circumstances)
    (call : Call α) :
    (client.exchanges context first second call).length ≤ 2 := by
  by_cases h : retries client.settings (client.firstAttempt context first call) = true
  · obtain ⟨connection, after, -, -, -, hexchanges⟩ := exchanges_of_retries second h
    rw [hexchanges, List.length_cons]
    exact Nat.succ_le_succ Option.length_toList_le
  · rw [exchanges_of_not_retries second h]
    exact Nat.le_succ_of_le Option.length_toList_le

/-- No more than one request of a call is written without a failure. -/
theorem countP_sends_le (client : Client) (context : CallContext) (first second : Circumstances) (call : Call α) :
    (client.exchanges context first second call).countP (sends (inContext context call)) ≤ 1 := by
  by_cases h : retries client.settings (client.firstAttempt context first call) = true
  · obtain ⟨connection, after, -, -, hexchange, hexchanges⟩ := exchanges_of_retries second h
    rw [hexchanges, List.countP_cons_of_neg (not_sends_of_peerClosed hexchange)]
    exact Nat.le_trans List.countP_le_length Option.length_toList_le
  · rw [exchanges_of_not_retries second h]
    exact Nat.le_trans List.countP_le_length Option.length_toList_le

/-- Calls are safe whatever the pool, the settings, the arguments, the other side and the sockets are. -/
theorem atMostOnce (client : Client) (context : CallContext) (first second : Circumstances) (call : Call α) :
    AtMostOnce client context first second call where
  few := length_exchanges_le client context first second call
  seen := exchange_attempts client context first second call
  repeated := by
    intro hne
    by_cases h : retries client.settings (client.firstAttempt context first call) = true
    · obtain ⟨connection, after, -, hreused, hexchange, hexchanges⟩ := exchanges_of_retries second h
      exact ⟨(retries_iff.mp h).1, connection, after, by rw [hexchanges, List.head?_cons], hreused, hexchange⟩
    · rw [attempts_of_not_retries second h] at hne
      exact absurd rfl hne
  found := fun peer connection after => Connection.exchange_peerClosed_iff peer
  partly := by
    intro hgathers peer connection after hexchange whole hwhole
    have hrequest : Gathers (inContext context call).arguments := hgathers
    obtain ⟨middle, hsend⟩ := sendRequest_of_peerClosed hexchange
    exact Connection.taken_of_not_sent hrequest hsend hwhole
  once := countP_sends_le client context first second call
  whole := by
    intro hgathers
    have hrequest : Gathers (inContext context call).arguments := hgathers
    refine Nat.le_trans (List.countP_mono_left fun connection _ hhands => ?_)
      (countP_sends_le client context first second call)
    exact (handsOver_iff_sends hrequest).mp (of_decide_eq_true hhands)
  returned := by
    intro connection hhead hcase
    by_cases h : retries client.settings (client.firstAttempt context first call) = true
    · obtain ⟨_, after, -, hreused, hexchange, hexchanges⟩ := exchanges_of_retries second h
      rw [hexchanges, List.head?_cons] at hhead
      cases hhead
      rcases hcase with hsends | hfresh
      · exact absurd hsends (not_sends_of_peerClosed hexchange)
      · rw [hreused] at hfresh
        cases hfresh
    · have hattempts := attempts_of_not_retries second h
      exact ⟨hattempts, by rw [invoke, hattempts]⟩
  cleared := by
    intro hne
    by_cases h : retries client.settings (client.firstAttempt context first call) = true
    · have hidle : (client.clearedPool context first call).idle client.settings.address = [] := by
        rw [clearedPool, Pool.idle_clearIdle, if_pos rfl]
      have hactive := Pool.active_clearIdle client.settings.address client.settings.address
        (client.firstAttempt context first call).pool
      rw [if_pos rfl] at hactive
      refine ⟨attempts_of_retries second h, hidle, hactive,
        fun other hother => Pool.slots_clearIdle_of_ne _ _ _ hother, fun hnone connection hmem => ?_⟩
      obtain ⟨_, after, -, -, -, hexchanges⟩ := exchanges_of_retries second h
      rw [hexchanges, List.tail_cons, Option.mem_toList] at hmem
      obtain ⟨last, hconnect⟩ := connect_of_exchanged hmem
      exact reused_of_connect hnone hconnect
    · rw [attempts_of_not_retries second h] at hne
      exact absurd rfl hne

/-- One call makes at most two exchanges, and at most one of them hands the whole request to a stream. What is
asked of its arguments there is so of every value and of every search. -/
theorem invoke_at_most_once (client : Client) (context : CallContext) (first second : Circumstances) (call : Call α) :
    AtMostOnce client context first second call ∧ (∀ value : Value, Gathers value.write) ∧
      ∀ request : Search.Request, Gathers request.write :=
  ⟨atMostOnce client context first second call, Value.gathers_write, fun request =>
    request.write_eq ▸ Value.gathers_write request.toValue⟩

/-- The other side goes away while a connection lies idle: nothing is sent on it, and the request goes out whole
on a new one. -/
example :
    let idle : Connection := ⟨0, .loopback, ⟨{}, .binary {}, .framed ⟨.connected, 16777216, 0, []⟩, [], [], none⟩,
      0, true, false, 0, some 1⟩
    let client : Client := ⟨{}, { settings := {}, slots := fun _ => some ⟨[idle], 1⟩ }⟩
    let first : Circumstances := { begun := 2, dialed := .error .timeout, meanwhile := Stream.shutdown }
    let second : Circumstances := { begun := 3, dialed := .ok .connected }
    let call : Call Unit := { method := "Ping", arguments := pure (), oneway := true, result := pure () }
    (client.exchanges {} first second call).map (fun connection => (connection.reused, sends call connection)) =
      [(true, false), (false, true)] := by
  decide

end Client
end RpcWire
