import RpcWire.Proofs.Pooling

/-! A pool and its callers, who take connections, open them, give them back, lose them, clear addresses and close
the pool, in any order. Every connection is in one place and every open one is counted. -/
namespace RpcWire

/-- The numbers at each place, all below `made`; none is at two places or twice at one. -/
structure Apart {Place : Type} (numbers : Place → List Nat) (made : Nat) : Prop where
  once : ∀ place, (numbers place).Nodup
  apart : ∀ place other, place ≠ other → ∀ number ∈ numbers place, number ∉ numbers other
  below : ∀ place, ∀ number ∈ numbers place, number < made

namespace Apart
variable {Place : Type} {numbers numbers' : Place → List Nat} {made made' : Nat}

/-- Numbers may be left out. -/
theorem sublist (h : Apart numbers made) (hsub : ∀ place, (numbers' place).Sublist (numbers place)) :
    Apart numbers' made where
  once := fun place => (h.once place).sublist (hsub place)
  apart := fun place other hne number hmem hother =>
    h.apart place other hne number ((hsub place).subset hmem) ((hsub other).subset hother)
  below := fun place number hmem => h.below place number ((hsub place).subset hmem)

/-- A number that is nowhere may come to a place. -/
theorem insert [DecidableEq Place] (h : Apart numbers made) (place : Place) (number : Nat)
    (hnew : ∀ other, number ∉ numbers other) (hle : made ≤ made') (hbelow : number < made')
    (hnumbers : ∀ other, numbers' other = if other = place then number :: numbers place else numbers other) :
    Apart numbers' made' := by
  have hcases (other : Place) (some : Nat) (hmem : some ∈ numbers' other) :
      (some = number ∧ other = place) ∨ some ∈ numbers other := by
    rw [hnumbers other] at hmem
    split at hmem
    · next heq =>
      rcases List.mem_cons.mp hmem with hsame | hold
      · exact Or.inl ⟨hsame, heq⟩
      · exact Or.inr (heq ▸ hold)
    · exact Or.inr hmem
  refine ⟨fun other => ?_, fun one other hne some hone hother => ?_, fun other some hmem => ?_⟩
  · rw [hnumbers other]
    split
    · exact List.nodup_cons.mpr ⟨hnew place, h.once place⟩
    · exact h.once other
  · rcases hcases one some hone with ⟨rfl, rfl⟩ | hone
    · rcases hcases other some hother with ⟨-, rfl⟩ | hother
      · exact hne rfl
      · exact hnew other hother
    · rcases hcases other some hother with ⟨rfl, -⟩ | hother
      · exact hnew one hone
      · exact h.apart one other hne some hone hother
  · rcases hcases other some hmem with ⟨rfl, -⟩ | hmem
    · exact hbelow
    · exact Nat.lt_of_lt_of_le (h.below other some hmem) hle

/-- A number may move to the front of another place, and others may be left out where it was. -/
theorem move [DecidableEq Place] (h : Apart numbers made) {source target : Place} (hne : target ≠ source)
    {before later kept : List Nat} {number : Nat} (hsource : numbers source = before ++ number :: later)
    (hkept : kept.Sublist (before ++ later))
    (hnumbers : ∀ other, numbers' other = if other = target then number :: numbers target else
      if other = source then kept else numbers other) : Apart numbers' made := by
  let middle (place : Place) : List Nat := if place = source then kept else numbers place
  have hmiddle : Apart middle made := by
    apply h.sublist
    intro place
    by_cases hp : place = source
    · have hdrop : (before ++ later).Sublist (before ++ number :: later) :=
        (List.Sublist.refl before).append (List.sublist_cons_self number later)
      simp only [middle, hp, if_true, hsource]
      exact hkept.trans hdrop
    · simp only [middle, hp, if_false, List.Sublist.refl]
  have hnowhere (place : Place) : number ∉ middle place := by
    by_cases hp : place = source
    · have honce := h.once source
      rw [hsource, List.perm_middle.nodup_iff, List.nodup_cons] at honce
      simp only [middle, hp, if_true]
      exact fun hmem => honce.1 (hkept.subset hmem)
    · simp only [middle, hp, if_false]
      exact h.apart source place (Ne.symm hp) number (by rw [hsource]; simp)
  have hbelow : number < made := h.below source number (by rw [hsource]; simp)
  apply hmiddle.insert target number hnowhere (Nat.le_refl made) hbelow
  intro other
  rw [hnumbers other]
  simp only [middle, if_neg hne]

end Apart

structure Lending where
  pool : Pool
  held : List Connection := []
  dialing : List SocketAddress := []

namespace Lending

/-- What a caller does. Clocks may show anything, and what is held and dialed is named by its place. -/
inductive Event where
  | take (now : Nat) (address : SocketAddress)
  /-- A dial ends. -/
  | opened (place now : Nat) (dialed : Except ClientError Stream)
  /-- A connection is given back after use. -/
  | put (place now : Nat) (session : Session) (lastSeqId : Int32) (failed : Bool)
  | clearIdle (address : SocketAddress)
  /-- A connection is lost. -/
  | forget (place : Nat)
  | close

def used (session : Session) (lastSeqId : Int32) (failed : Bool) (connection : Connection) : Connection :=
  { connection with session, lastSeqId, failed }

def granted (address : SocketAddress) (grant : Grant) (pool : Pool) (lending : Lending) : Lending :=
  match grant with
  | .reuse connection => { lending with pool, held := connection :: lending.held }
  | .dial => { lending with pool, dialing := address :: lending.dialing }
  | .refused _ => { lending with pool }

def step (event : Event) (lending : Lending) : Lending :=
  match event with
  | .take now address =>
    lending.granted address (lending.pool.take now address).1 (lending.pool.take now address).2
  | .opened place now dialed =>
    match lending.dialing[place]? with
    | none => lending
    | some address =>
      match lending.pool.opened now address dialed with
      | (.ok connection, pool) =>
        { pool, held := connection :: lending.held, dialing := lending.dialing.eraseIdx place }
      | (.error _, pool) => { lending with pool, dialing := lending.dialing.eraseIdx place }
  | .put place now session lastSeqId failed =>
    match lending.held[place]? with
    | none => lending
    | some connection => { lending with
        pool := (lending.pool.put now (used session lastSeqId failed connection)).2
        held := lending.held.eraseIdx place }
  | .clearIdle address => { lending with pool := (lending.pool.clearIdle address).2 }
  | .forget place =>
    match lending.held[place]? with
    | none => lending
    | some connection => { lending with
        pool := lending.pool.forget connection.address
        held := lending.held.eraseIdx place }
  | .close => { lending with pool := lending.pool.close }

def addressOf (event : Event) (lending : Lending) : Option SocketAddress :=
  match event with
  | .take _ address => some address
  | .opened place _ _ => lending.dialing[place]?
  | .put place _ _ _ _ => lending.held[place]?.map (·.address)
  | .clearIdle address => some address
  | .forget place => lending.held[place]?.map (·.address)
  | .close => none

/-- How many slots of an address an event frees, one after the other. -/
def freed (event : Event) (lending : Lending) (address : SocketAddress) : Nat :=
  match event with
  | .take now asked =>
    if asked = address ∧ lending.pool.closed = false then
      ((lending.pool.idle address).takeWhile fun connection => connection.isExpired lending.pool.settings now).length
    else 0
  | .opened place now dialed =>
    match lending.dialing[place]? with
    | none => 0
    | some dialedTo =>
      match (lending.pool.opened now dialedTo dialed).1 with
      | .ok _ => 0
      | .error _ => if dialedTo = address then 1 else 0
  | .put place now session lastSeqId failed =>
    match lending.held[place]? with
    | none => 0
    | some connection =>
      match (lending.pool.put now (used session lastSeqId failed connection)).1 with
      | .closed => if connection.address = address then 1 else 0
      | _ => 0
  | .clearIdle cleared => if cleared = address then (lending.pool.idle address).length else 0
  | .forget place =>
    match lending.held[place]? with
    | none => 0
    | some connection => if connection.address = address then 1 else 0
  | .close => (lending.pool.idle address).length

def acquired (event : Event) (lending : Lending) (address : SocketAddress) : Nat :=
  match event with
  | .take now asked =>
    match (lending.pool.take now asked).1 with
    | .dial => if asked = address then 1 else 0
    | _ => 0
  | _ => 0

def run (events : List Event) (lending : Lending) : Lending :=
  events.foldl (fun lending event => step event lending) lending

def heldTo (address : SocketAddress) (held : List Connection) : List Connection :=
  held.filter (·.address = address)

def serials (lending : Lending) : Option SocketAddress → List Nat
  | none => lending.held.map (·.serial)
  | some address => (lending.pool.idle address).map (·.serial)

structure BalancedAt (lending : Lending) (address : SocketAddress) : Prop where
  /-- Idle connections, held ones and dials under way are all that is counted. -/
  counted : lending.pool.active address =
    (lending.pool.idle address).length + (heldTo address lending.held).length + lending.dialing.count address
  bounded : 0 < lending.pool.settings.maxActive → lending.pool.active address ≤ lending.pool.settings.maxActive
  roomy : (lending.pool.idle address).length ≤ lending.pool.settings.maxIdle
  usable : ∀ connection ∈ lending.pool.idle address,
    connection.address = address ∧ connection.failed = false ∧ connection.reused = true
  closed : lending.pool.closed = true → lending.pool.idle address = []

structure Balanced (lending : Lending) : Prop where
  accounts : ∀ address, lending.BalancedAt address
  /-- No connection is idle twice, held twice, or idle and held. -/
  apart : Apart lending.serials lending.pool.made

structure Same (address : SocketAddress) (before after : Lending) : Prop where
  slots : after.pool.slots address = before.pool.slots address
  held : heldTo address after.held = heldTo address before.held
  dialing : after.dialing.count address = before.dialing.count address

structure Only (address : SocketAddress) (before after : Lending) : Prop where
  settings : after.pool.settings = before.pool.settings
  closed : after.pool.closed = before.pool.closed
  others : ∀ other, other ≠ address → Same other before after

variable {lending before after : Lending} {address : SocketAddress}

private theorem Same.idle (h : Same address before after) :
    after.pool.idle address = before.pool.idle address := by
  rw [Pool.idle, Pool.idle, h.slots]

private theorem Same.active (h : Same address before after) :
    after.pool.active address = before.pool.active address := by
  rw [Pool.active, Pool.active, h.slots]

/-- Where nothing changes, all stays balanced. -/
theorem Only.balancedAt (h : Only address before after) (hbefore : ∀ other, before.BalancedAt other)
    (hafter : after.BalancedAt address) : ∀ other, after.BalancedAt other := by
  intro other
  by_cases hother : other = address
  · exact hother ▸ hafter
  · have hsame := h.others other hother
    obtain ⟨hcounted, hbounded, hroomy, husable, hclosed⟩ := hbefore other
    refine ⟨?_, ?_, ?_, ?_, ?_⟩
    · rw [hsame.active, hsame.idle, hsame.held, hsame.dialing, hcounted]
    · rw [h.settings, hsame.active]
      exact hbounded
    · rw [h.settings, hsame.idle]
      exact hroomy
    · rw [hsame.idle]
      exact husable
    · rw [h.closed, hsame.idle]
      exact hclosed

/-- A step that concerns one address keeps the balance if it keeps it there and keeps connections apart. -/
theorem Only.balanced (h : Only address before after) (hbefore : before.Balanced) (hafter : after.BalancedAt address)
    (hapart : Apart after.serials after.pool.made) : Only address before after ∧ after.Balanced :=
  ⟨h, ⟨h.balancedAt hbefore.accounts hafter, hapart⟩⟩

/-- Connections stay apart where some of them go. -/
theorem Balanced.apart_of_sublist (h : before.Balanced) (hheld : after.held.Sublist before.held)
    (hidle : ∀ other, (after.pool.idle other).Sublist (before.pool.idle other)) :
    Apart after.serials before.pool.made := by
  apply h.apart.sublist
  intro place
  cases place with
  | none => exact hheld.map _
  | some other => exact (hidle other).map _

theorem Only.of_setSlots {slots : Slots} {held : List Connection} {dialing : List SocketAddress}
    (hheld : ∀ other, other ≠ address → heldTo other held = heldTo other lending.held)
    (hdialing : ∀ other, other ≠ address → dialing.count other = lending.dialing.count other) :
    Only address lending ⟨lending.pool.setSlots address slots, held, dialing⟩ :=
  ⟨rfl, rfl, fun other hother =>
    ⟨Pool.slots_setSlots_of_ne _ _ _ _ hother, hheld other hother, hdialing other hother⟩⟩

theorem balanced_start (settings : PoolSettings) : Balanced ⟨{ settings }, [], []⟩ where
  accounts := fun address =>
    ⟨rfl, fun _ => Nat.zero_le _, Nat.zero_le _, fun connection hmem => absurd hmem List.not_mem_nil, fun _ => rfl⟩
  apart := by
    refine ⟨fun place => ?_, fun place other _ number hmem => ?_, fun place number hmem => ?_⟩
    all_goals cases place <;> first | exact List.nodup_nil | cases hmem

theorem cleared_sublist (cleared : Prop) [Decidable cleared] (idle : List Connection) :
    (if cleared then [] else idle).Sublist idle := by
  split
  · exact List.nil_sublist _
  · exact List.Sublist.refl _

end Lending
end RpcWire
