import Mathlib.Data.List.TakeWhile
import RpcWire.Proofs.Balance

/-! The count of open connections over every run of a pool and its callers, and what callers may rely on. -/
namespace RpcWire
namespace Lending
variable {lending : Lending}

/-! ## The count -/

/-- Every slot that is freed was counted, and the count changes by what is freed and taken. -/
def Counts (event : Event) (lending : Lending) : Prop :=
  ∀ address, lending.freed event address ≤ lending.pool.active address ∧
    (step event lending).pool.active address =
      lending.pool.active address - lending.freed event address + lending.acquired event address

theorem take_counts (h : lending.Balanced) (now : Nat) (asked : SocketAddress) :
    Counts (.take now asked) lending := by
  intro address
  have htake := Pool.takes asked lending.pool now
  have hcounted := (h.accounts address).counted
  simp only [step, freed, acquired]
  generalize (lending.pool.take now asked).1 = grant at *
  generalize (lending.pool.take now asked).2 = pool at *
  by_cases hasked : asked = address
  · subst hasked
    cases htake with
    | closed hshut => simp [granted, hshut]
    | reuse old connection rest hopen hidle hold hnew =>
      have hwhile : ((lending.pool.idle asked).takeWhile fun connection =>
          connection.isExpired lending.pool.settings now) = old := by
        rw [hidle, List.takeWhile_append_of_pos hold, List.takeWhile_cons_of_neg (by simp [hnew]), List.append_nil]
      rw [hidle, List.length_append] at hcounted
      simp only [hwhile, hopen, granted, and_self, if_true, Pool.active_setSlots]
      omega
    | dial hopen hold hroom =>
      simp only [List.takeWhile_eq_self_iff.mpr hold, hopen, granted, and_self, and_true, if_true, Pool.active_setSlots]
      omega
    | full hopen hold hfull =>
      simp only [List.takeWhile_eq_self_iff.mpr hold, hopen, granted, and_self, if_true, Pool.active_setSlots]
      omega
  · cases htake <;> simp [granted, hasked, Ne.symm hasked]

theorem opened_counts (h : lending.Balanced) (place now : Nat) (dialed : Except ClientError Stream) :
    Counts (.opened place now dialed) lending := by
  intro address
  simp only [step, freed, acquired]
  cases hplace : lending.dialing[place]? with
  | none => exact ⟨Nat.zero_le _, rfl⟩
  | some dialedTo =>
    simp only
    have hcounted := (h.accounts dialedTo).counted
    obtain ⟨before, later, hdialing, hrest⟩ := split_of_getElem? hplace
    rw [hdialing, List.count_append, List.count_cons_self] at hcounted
    rcases lending.pool.opened_cases dialedTo now dialed with ⟨connection, hopened, -⟩ | ⟨err, hopened⟩
    · rw [hopened]
      exact ⟨Nat.zero_le _, rfl⟩
    · rw [hopened]
      simp only [Pool.active_forget]
      by_cases hto : dialedTo = address
      · subst hto
        simp only [if_true]
        omega
      · simp [hto, Ne.symm hto]

/-- A held connection is counted. -/
theorem active_pos (h : lending.Balanced) {place : Nat} {connection : Connection}
    (hplace : lending.held[place]? = some connection) : 0 < lending.pool.active connection.address := by
  have hcounted := (h.accounts connection.address).counted
  obtain ⟨earlier, later, hheld, -⟩ := split_of_getElem? hplace
  rw [hheld, length_heldTo_removed] at hcounted
  omega

theorem put_counts (h : lending.Balanced) (place now : Nat) (session : Session) (lastSeqId : Int32) (failed : Bool) :
    Counts (.put place now session lastSeqId failed) lending := by
  intro address
  simp only [step, freed, acquired]
  cases hplace : lending.held[place]? with
  | none => exact ⟨Nat.zero_le _, rfl⟩
  | some connection =>
    simp only
    have hpos := active_pos h hplace
    obtain ⟨earlier, later, hheld, hrest⟩ := split_of_getElem? hplace
    have haddress : (used session lastSeqId failed connection).address = connection.address := rfl
    rcases put_of_held now h hheld haddress with hput | ⟨-, -, -, hput⟩
    · rw [hput]
      simp only [Pool.active_setSlots]
      by_cases hto : connection.address = address
      · subst hto
        simp only [if_true]
        omega
      · simp [hto, Ne.symm hto]
    · rw [hput]
      simp only [Pool.active_setSlots]
      by_cases hto : connection.address = address
      · subst hto
        simp
      · simp [Ne.symm hto]

theorem forget_counts (h : lending.Balanced) (place : Nat) : Counts (.forget place) lending := by
  intro address
  simp only [step, freed, acquired]
  cases hplace : lending.held[place]? with
  | none => exact ⟨Nat.zero_le _, rfl⟩
  | some connection =>
    have hpos := active_pos h hplace
    simp only [Pool.active_forget]
    by_cases hto : connection.address = address
    · subst hto
      simp only [if_true]
      omega
    · simp [hto, Ne.symm hto]

theorem event_counts (h : lending.Balanced) (event : Event) : Counts event lending := by
  cases event with
  | take now asked => exact take_counts h now asked
  | opened place now dialed => exact opened_counts h place now dialed
  | put place now session lastSeqId failed => exact put_counts h place now session lastSeqId failed
  | clearIdle cleared =>
    intro address
    have hcounted := (h.accounts address).counted
    simp only [step, freed, acquired, Pool.active_clearIdle]
    by_cases hcleared : cleared = address
    · subst hcleared
      simp only [if_true]
      omega
    · simp [hcleared, Ne.symm hcleared]
  | forget place => exact forget_counts h place
  | close =>
    intro address
    have hcounted := (h.accounts address).counted
    simp only [step, freed, acquired, Pool.active_close]
    omega

/-! ## Every run -/

structure Reliable (lending : Lending) : Prop where
  /-- An idle connection that is handed out has not expired by the clock that was read. -/
  fresh : ∀ now address connection pool, lending.pool.take now address = (.reuse connection, pool) →
    connection ∈ lending.pool.idle address ∧ connection.isExpired lending.pool.settings now = false
  /-- A closed pool hands out nothing. -/
  refused : lending.pool.closed = true →
    ∀ now address, lending.pool.take now address = (.refused .poolClosed, lending.pool)
  /-- A connection that is given back to a closed pool is closed. -/
  destroyed : lending.pool.closed = true → ∀ connection ∈ lending.held, ∀ now session lastSeqId failed,
    (lending.pool.put now (used session lastSeqId failed connection)).1 = .closed
  /-- No connection that is given back is to an address that the pool does not know. -/
  known : ∀ connection ∈ lending.held, ∀ now session lastSeqId failed,
    (lending.pool.put now (used session lastSeqId failed connection)).1 ≠ .unknown

theorem Balanced.reliable (h : lending.Balanced) : Reliable lending where
  fresh := by
    intro now address connection pool htake
    have htakes := Pool.takes address lending.pool now
    rw [htake] at htakes
    cases htakes with
    | reuse old _ rest hopen hidle hold hnew =>
      refine ⟨?_, hnew⟩
      rw [hidle]
      exact List.mem_append_right old List.mem_cons_self
  refused := by
    intro hclosed now address
    rw [Pool.take, if_pos hclosed]
  destroyed := by
    intro hclosed connection hmem now session lastSeqId failed
    obtain ⟨earlier, later, hheld⟩ := List.append_of_mem hmem
    have haddress : (used session lastSeqId failed connection).address = connection.address := rfl
    rcases put_of_held now h hheld haddress with hput | ⟨-, hopen, -⟩
    · rw [hput]
    · rw [hclosed] at hopen
      cases hopen
  known := by
    intro connection hmem now session lastSeqId failed
    obtain ⟨earlier, later, hheld⟩ := List.append_of_mem hmem
    have haddress : (used session lastSeqId failed connection).address = connection.address := rfl
    rcases put_of_held now h hheld haddress with hput | ⟨-, -, -, hput⟩
    · rw [hput]
      intro hunknown
      cases hunknown
    · rw [hput]
      intro hunknown
      cases hunknown

theorem run_balanced (h : lending.Balanced) (events : List Event) : Balanced (run events lending) := by
  induction events generalizing lending with
  | nil => exact h
  | cons event rest ih => exact ih (step_keeps h event).balanced

theorem settings_run (h : lending.Balanced) (events : List Event) :
    (run events lending).pool.settings = lending.pool.settings := by
  induction events generalizing lending with
  | nil => rfl
  | cons event rest ih => exact (ih (step_keeps h event).balanced).trans (step_keeps h event).settings

theorem run_closed (h : lending.Balanced) {events : List Event}
    (hclosed : lending.pool.closed = true ∨ .close ∈ events) : (run events lending).pool.closed = true := by
  induction events generalizing lending with
  | nil => exact hclosed.resolve_right List.not_mem_nil
  | cons event rest ih =>
    apply ih (step_keeps h event).balanced
    rcases hclosed with hclosed | hmem
    · exact Or.inl ((step_keeps h event).closed hclosed)
    · rcases List.mem_cons.mp hmem with rfl | hmem
      · exact Or.inl rfl
      · exact Or.inr hmem

/-- Whatever callers do, in whatever order and by whatever clock: the pool is balanced at every point, every slot
that is freed was taken, an event concerns one address unless it closes the pool, and a closed pool stays closed. -/
theorem run_accounts (settings : PoolSettings) (events : List Event) :
    let lending := run events ⟨{ settings }, [], []⟩
    lending.pool.settings = settings ∧ lending.Balanced ∧ lending.Reliable ∧
      (.close ∈ events → lending.pool.closed = true) ∧ ∀ event, Keeps event lending ∧ Counts event lending := by
  have hstart := balanced_start settings
  have h := run_balanced hstart events
  refine ⟨settings_run hstart events, h, h.reliable, fun hmem => run_closed hstart (Or.inr hmem), fun event => ?_⟩
  exact ⟨step_keeps h event, event_counts h event⟩

/-- The pool is closed during a dial: the connection is handed out all the same, and closed when it is given back. -/
example :
    let dialed : List Event := [.take 0 .loopback, .close, .opened 0 1 (.ok .connected)]
    let session : Session := ⟨{}, .binary {}, .raw .connected, [], [], none⟩
    let count (events : List Event) : Nat × Nat :=
      let lending := run events ⟨{ settings := {} }, [], []⟩
      (lending.pool.active .loopback, lending.held.length)
    count dialed = (1, 1) ∧ count (dialed ++ [.put 0 2 session 1 false]) = (0, 0) := by
  decide

end Lending
end RpcWire
