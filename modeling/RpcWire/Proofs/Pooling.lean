import RpcWire.Client.Pool

/-! What each operation of a pool does to the idle connections and to the count of open ones. -/
namespace RpcWire

/-- The idle connections are looked through up to the first that has not expired. -/
theorem Slots.takeIdle_cases (settings : PoolSettings) (now : Nat) (idle : List Connection) (active : Nat) :
    (∃ old connection rest, idle = old ++ connection :: rest ∧ (∀ other ∈ old, other.isExpired settings now = true) ∧
      connection.isExpired settings now = false ∧
      takeIdle settings now idle active = (some connection, ⟨rest, active - old.length⟩)) ∨
    (∀ other ∈ idle, other.isExpired settings now = true) ∧
      takeIdle settings now idle active = (none, ⟨[], active - idle.length⟩) := by
  induction idle generalizing active with
  | nil => exact Or.inr ⟨fun _ h => absurd h List.not_mem_nil, rfl⟩
  | cons connection rest ih =>
    rw [takeIdle]
    cases hexpired : connection.isExpired settings now with
    | false =>
      exact Or.inl ⟨[], connection, rest, rfl, fun _ h => absurd h List.not_mem_nil, hexpired, rfl⟩
    | true =>
      rw [if_pos rfl]
      rcases ih (active - 1) with ⟨old, next, rest', rfl, hold, hnext, htake⟩ | ⟨hall, htake⟩
      · refine Or.inl ⟨connection :: old, next, rest', rfl, List.forall_mem_cons.mpr ⟨hexpired, hold⟩, hnext, ?_⟩
        rw [htake, List.length_cons, Nat.sub_sub, Nat.add_comm]
      · refine Or.inr ⟨List.forall_mem_cons.mpr ⟨hexpired, hall⟩, ?_⟩
        rw [htake, List.length_cons, Nat.sub_sub, Nat.add_comm]

namespace Pool
variable (address other : SocketAddress) (slots : Slots) (pool : Pool)

@[simp] theorem idle_setSlots :
    (pool.setSlots address slots).idle other = if other = address then slots.idle else pool.idle other := by
  rw [idle, setSlots]
  by_cases h : other = address
  · simp [h]
  · simp [h, idle]

@[simp] theorem active_setSlots :
    (pool.setSlots address slots).active other = if other = address then slots.active else pool.active other := by
  rw [active, setSlots]
  by_cases h : other = address
  · simp [h]
  · simp [h, active]

/-- Of an address that the pool does not know, no connection is open. -/
theorem active_of_slots_none (h : pool.slots address = none) : pool.active address = 0 := by
  rw [active, h]
  rfl

theorem slots_setSlots_of_ne (h : other ≠ address) : (pool.setSlots address slots).slots other = pool.slots other :=
  if_neg h

private theorem slots_mapSlots (f : Slots → Slots) :
    (pool.mapSlots address f).slots other =
      if other = address then (pool.slots address).map f else pool.slots other := by
  rw [mapSlots]
  cases h : pool.slots address with
  | none =>
    by_cases ho : other = address
    · rw [if_pos ho, ho, h, Option.map_none]
    · rw [if_neg ho]
  | some slots => rfl

@[simp] theorem settings_setSlots : (pool.setSlots address slots).settings = pool.settings := rfl

@[simp] theorem closed_setSlots : (pool.setSlots address slots).closed = pool.closed := rfl

/-- Changing the slots of an address changes nothing else of a pool. -/
theorem mapSlots_eq (f : Slots → Slots) :
    pool.mapSlots address f = { pool with slots := (pool.mapSlots address f).slots } := by
  rw [mapSlots]
  cases pool.slots address <;> rfl

@[simp] theorem settings_forget : (pool.forget address).settings = pool.settings := by
  rw [forget, mapSlots_eq]

@[simp] theorem closed_forget : (pool.forget address).closed = pool.closed := by
  rw [forget, mapSlots_eq]

@[simp] theorem made_forget : (pool.forget address).made = pool.made := by
  rw [forget, mapSlots_eq]

@[simp] theorem settings_clearIdle : (pool.clearIdle address).2.settings = pool.settings := by
  rw [clearIdle, mapSlots_eq]

@[simp] theorem closed_clearIdle : (pool.clearIdle address).2.closed = pool.closed := by
  rw [clearIdle, mapSlots_eq]

@[simp] theorem made_clearIdle : (pool.clearIdle address).2.made = pool.made := by
  rw [clearIdle, mapSlots_eq]

@[simp] theorem idle_forget : (pool.forget address).idle other = pool.idle other := by
  simp only [forget, idle, slots_mapSlots]
  by_cases ho : other = address
  · rw [if_pos ho, ho]
    cases pool.slots address <;> rfl
  · rw [if_neg ho]

@[simp] theorem active_forget :
    (pool.forget address).active other = if other = address then pool.active address - 1 else pool.active other := by
  simp only [forget, active, slots_mapSlots]
  by_cases ho : other = address
  · rw [if_pos ho, if_pos ho]
    cases pool.slots address <;> rfl
  · rw [if_neg ho, if_neg ho]

@[simp] theorem idle_clearIdle :
    (pool.clearIdle address).2.idle other = if other = address then [] else pool.idle other := by
  simp only [clearIdle, idle, slots_mapSlots]
  by_cases ho : other = address
  · rw [if_pos ho, if_pos ho]
    cases pool.slots address <;> rfl
  · rw [if_neg ho, if_neg ho]

@[simp] theorem active_clearIdle :
    (pool.clearIdle address).2.active other =
      if other = address then pool.active address - (pool.idle address).length else pool.active other := by
  simp only [clearIdle, active, idle, slots_mapSlots]
  by_cases ho : other = address
  · rw [if_pos ho, if_pos ho]
    cases pool.slots address <;> rfl
  · rw [if_neg ho, if_neg ho]

theorem slots_clearIdle_of_ne (h : other ≠ address) : (pool.clearIdle address).2.slots other = pool.slots other := by
  rw [clearIdle, slots_mapSlots, if_neg h]

theorem slots_forget_of_ne (h : other ≠ address) : (pool.forget address).slots other = pool.slots other := by
  rw [forget, slots_mapSlots, if_neg h]

@[simp] theorem idle_close : pool.close.idle other = [] := by
  simp only [close, idle]
  cases pool.slots other <;> rfl

@[simp] theorem active_close : pool.close.active other = pool.active other - (pool.idle other).length := by
  simp only [close, active, idle]
  cases pool.slots other <;> rfl

/-- What a caller who asks for a connection gets, and what is left in the pool. -/
inductive Takes (now : Nat) : Grant → Pool → Prop where
  | closed (hclosed : pool.closed = true) : Takes now (.refused .poolClosed) pool
  | reuse (old : List Connection) (connection : Connection) (rest : List Connection) (hopen : pool.closed = false)
      (hidle : pool.idle address = old ++ connection :: rest)
      (hold : ∀ other ∈ old, other.isExpired pool.settings now = true)
      (hnew : connection.isExpired pool.settings now = false) :
      Takes now (.reuse connection) (pool.setSlots address ⟨rest, pool.active address - old.length⟩)
  | dial (hopen : pool.closed = false) (hold : ∀ other ∈ pool.idle address, other.isExpired pool.settings now = true)
      (hroom : pool.settings.maxActive = 0 ∨
        pool.active address - (pool.idle address).length < pool.settings.maxActive) :
      Takes now .dial (pool.setSlots address ⟨[], pool.active address - (pool.idle address).length + 1⟩)
  | full (hopen : pool.closed = false) (hold : ∀ other ∈ pool.idle address, other.isExpired pool.settings now = true)
      (hfull : ¬(pool.settings.maxActive = 0 ∨
        pool.active address - (pool.idle address).length < pool.settings.maxActive)) :
      Takes now (.refused (.tooManyConnections address))
        (pool.setSlots address ⟨[], pool.active address - (pool.idle address).length⟩)

theorem takes (now : Nat) : Takes address pool now (pool.take now address).1 (pool.take now address).2 := by
  cases hclosed : pool.closed with
  | true =>
    rw [take, if_pos hclosed]
    exact .closed hclosed
  | false =>
    rcases Slots.takeIdle_cases pool.settings now (pool.idle address) (pool.active address) with
      ⟨old, connection, rest, hidle, hold, hnew, hslots⟩ | ⟨hold, hslots⟩
    · have htake : pool.take now address =
          (.reuse connection, pool.setSlots address ⟨rest, pool.active address - old.length⟩) := by
        rw [idle, active] at hslots
        simp only [take, hclosed, hslots, Bool.false_eq_true, if_false]
        rfl
      rw [htake]
      exact .reuse old connection rest hclosed hidle hold hnew
    · by_cases hroom : pool.settings.maxActive = 0 ∨
          pool.active address - (pool.idle address).length < pool.settings.maxActive
      · have htake : pool.take now address =
            (.dial, pool.setSlots address ⟨[], pool.active address - (pool.idle address).length + 1⟩) := by
          rw [idle, active] at hslots hroom
          simp only [take, hclosed, hslots, Slots.acquire?, if_pos hroom, Bool.false_eq_true, if_false]
          rfl
        rw [htake]
        exact .dial hclosed hold hroom
      · have htake : pool.take now address = (.refused (.tooManyConnections address),
            pool.setSlots address ⟨[], pool.active address - (pool.idle address).length⟩) := by
          rw [idle, active] at hslots hroom
          simp only [take, hclosed, hslots, Slots.acquire?, if_neg hroom, Bool.false_eq_true, if_false]
          rfl
        rw [htake]
        exact .full hclosed hold hroom

/-- A dial ends in a new connection with a number of its own, or frees the slot taken for it. -/
theorem opened_cases (now : Nat) (dialed : Except ClientError Stream) :
    (∃ connection, pool.opened now address dialed = (.ok connection, { pool with made := pool.made + 1 }) ∧
      connection.serial = pool.made ∧ connection.address = address ∧ connection.reused = false) ∨
    ∃ err, pool.opened now address dialed = (.error err, pool.forget address) := by
  rw [opened]
  split
  · next connection hconnection =>
    refine Or.inl ⟨connection, rfl, ?_⟩
    cases dialed with
    | error err => cases hconnection
    | ok stream =>
      simp only [Except.bind, Connection.ofStream?, bind] at hconnection
      split at hconnection
      · cases hconnection
      · cases hconnection
        exact ⟨rfl, rfl, rfl⟩
  · next err _ => exact Or.inr ⟨err, rfl⟩

/-- A connection given back lies idle or is closed, as long as its address is known. -/
theorem put_cases (now : Nat) {connection : Connection} (hknown : pool.slots connection.address ≠ none) :
    (pool.put now connection = (.closed, pool.setSlots connection.address
        ⟨pool.idle connection.address, pool.active connection.address - 1⟩)) ∨
    connection.failed = false ∧ pool.closed = false ∧ connection.isExpired pool.settings now = false ∧
      (pool.idle connection.address).length < pool.settings.maxIdle ∧
      pool.put now connection = (.kept, pool.setSlots connection.address
        ⟨connection.release now :: pool.idle connection.address, pool.active connection.address⟩) := by
  cases hslots : pool.slots connection.address with
  | none => exact absurd hslots hknown
  | some slots =>
    have hidle : pool.idle connection.address = slots.idle := by rw [idle, hslots, Option.getD_some]
    have hactive : pool.active connection.address = slots.active := by rw [active, hslots, Option.getD_some]
    rw [put, hslots, hidle, hactive]
    by_cases hkeep : connection.failed || pool.closed || connection.isExpired pool.settings now ||
        pool.settings.maxIdle ≤ slots.idle.length
    · exact Or.inl (if_pos hkeep)
    · have hkept := hkeep
      simp only [Bool.or_eq_true, decide_eq_true_eq, not_or, Bool.not_eq_true, Nat.not_le] at hkept
      obtain ⟨⟨⟨hfailed, hopen⟩, hnew⟩, hroom⟩ := hkept
      exact Or.inr ⟨hfailed, hopen, hnew, hroom, if_neg hkeep⟩

end Pool
end RpcWire
