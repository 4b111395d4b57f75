import RpcWire.Proofs.Lending

/-! Each thing that a caller does keeps a pool balanced, and concerns one address. -/
namespace RpcWire
namespace Lending
variable {lending : Lending} {address : SocketAddress}

/-! ## One address -/

theorem clearIdle_step (h : lending.Balanced) (address : SocketAddress) :
    Only address lending { lending with pool := (lending.pool.clearIdle address).2 } ∧
      Balanced { lending with pool := (lending.pool.clearIdle address).2 } := by
  have honly : Only address lending { lending with pool := (lending.pool.clearIdle address).2 } :=
    ⟨by simp only [Pool.settings_clearIdle], by simp only [Pool.closed_clearIdle],
      fun _ hother => ⟨Pool.slots_clearIdle_of_ne _ _ _ hother, rfl, rfl⟩⟩
  obtain ⟨hcounted, hbounded, hroomy, husable, hclosed⟩ := h.accounts address
  refine honly.balanced h ⟨?_, ?_, ?_, ?_, ?_⟩ ?_
  · simp only [Pool.active_clearIdle, Pool.idle_clearIdle, if_true, hcounted, List.length_nil]
    omega
  · simp only [Pool.settings_clearIdle, Pool.active_clearIdle, if_true]
    exact fun hpos => Nat.le_trans (Nat.sub_le _ _) (hbounded hpos)
  · simp
  · simp
  · simp
  · rw [Pool.made_clearIdle]
    refine h.apart_of_sublist (List.Sublist.refl _) fun other => ?_
    rw [Pool.idle_clearIdle]
    exact cleared_sublist _ _

/-- What stands at a place, and the rest. -/
theorem split_of_getElem? {α : Type} {items : List α} {place : Nat} {item : α} (h : items[place]? = some item) :
    ∃ before later, items = before ++ item :: later ∧ items.eraseIdx place = before ++ later := by
  obtain ⟨hplace, rfl⟩ := List.getElem?_eq_some_iff.mp h
  refine ⟨items.take place, items.drop (place + 1), ?_, List.eraseIdx_eq_take_drop_succ items place⟩
  rw [List.getElem_cons_drop, List.take_append_drop]

section
variable {connection : Connection} {earlier later : List Connection}

theorem heldTo_cons_of_ne {other : SocketAddress} (h : other ≠ connection.address) (held : List Connection) :
    heldTo other (connection :: held) = heldTo other held := by
  simp [heldTo, Ne.symm h]

theorem length_heldTo_cons (connection : Connection) (held : List Connection) :
    (heldTo connection.address (connection :: held)).length = (heldTo connection.address held).length + 1 := by
  simp [heldTo]

theorem heldTo_removed_of_ne {other : SocketAddress} (h : other ≠ connection.address) :
    heldTo other (earlier ++ later) = heldTo other (earlier ++ connection :: later) := by
  simp [heldTo, Ne.symm h]

theorem length_heldTo_removed :
    (heldTo connection.address (earlier ++ connection :: later)).length =
      (heldTo connection.address (earlier ++ later)).length + 1 := by
  simp [heldTo]
  omega

theorem sublist_removed (earlier later : List Connection) (connection : Connection) :
    (earlier ++ later).Sublist (earlier ++ connection :: later) :=
  (List.Sublist.refl earlier).append (List.sublist_cons_self connection later)

theorem forget_step (h : lending.Balanced) (hheld : lending.held = earlier ++ connection :: later) :
    Only connection.address lending
        { lending with pool := lending.pool.forget connection.address, held := earlier ++ later } ∧
      Balanced { lending with pool := lending.pool.forget connection.address, held := earlier ++ later } := by
  have honly : Only connection.address lending
      { lending with pool := lending.pool.forget connection.address, held := earlier ++ later } :=
    ⟨by simp only [Pool.settings_forget], by simp only [Pool.closed_forget],
      fun _ hother => ⟨Pool.slots_forget_of_ne _ _ _ hother, by rw [hheld, heldTo_removed_of_ne hother], rfl⟩⟩
  obtain ⟨hcounted, hbounded, hroomy, husable, hclosed⟩ := h.accounts connection.address
  rw [hheld, length_heldTo_removed] at hcounted
  refine honly.balanced h ⟨?_, ?_, ?_, ?_, ?_⟩ ?_
  · simp only [Pool.active_forget, Pool.idle_forget, if_true]
    omega
  · simp only [Pool.settings_forget, Pool.active_forget, if_true]
    exact fun hpos => Nat.le_trans (Nat.sub_le _ _) (hbounded hpos)
  · simpa using hroomy
  · simpa using husable
  · simpa using hclosed
  · rw [Pool.made_forget]
    apply h.apart_of_sublist (hheld ▸ sublist_removed earlier later connection)
    intro other
    simp only [Pool.idle_forget, List.Sublist.refl]

/-- A held connection is to an address that the pool knows. -/
theorem slots_ne_none (h : lending.Balanced) (hheld : lending.held = earlier ++ connection :: later) :
    lending.pool.slots connection.address ≠ none := by
  intro hnone
  have hcounted := (h.accounts connection.address).counted
  rw [hheld, length_heldTo_removed, Pool.active_of_slots_none _ _ hnone] at hcounted
  omega

/-- What becomes of a held connection that is given back after use. -/
theorem put_of_held (now : Nat) {back : Connection} (h : lending.Balanced)
    (hheld : lending.held = earlier ++ connection :: later) (haddress : back.address = connection.address) :
    (lending.pool.put now back = (.closed, lending.pool.setSlots connection.address
        ⟨lending.pool.idle connection.address, lending.pool.active connection.address - 1⟩)) ∨
    back.failed = false ∧ lending.pool.closed = false ∧
      (lending.pool.idle connection.address).length < lending.pool.settings.maxIdle ∧
      lending.pool.put now back = (.kept, lending.pool.setSlots connection.address
        ⟨back.release now :: lending.pool.idle connection.address, lending.pool.active connection.address⟩) := by
  have hknown : lending.pool.slots back.address ≠ none := haddress ▸ slots_ne_none h hheld
  rw [← haddress]
  rcases Pool.put_cases lending.pool now hknown with hput | ⟨hfailed, hopen, -, hroom, hput⟩
  · exact Or.inl hput
  · exact Or.inr ⟨hfailed, hopen, hroom, hput⟩

/-- A connection that is given back lies idle or is closed. -/
theorem put_step (now : Nat) (back : Connection) (h : lending.Balanced)
    (hheld : lending.held = earlier ++ connection :: later) (haddress : back.address = connection.address)
    (hserial : back.serial = connection.serial) :
    Only connection.address lending { lending with pool := (lending.pool.put now back).2, held := earlier ++ later } ∧
      Balanced { lending with pool := (lending.pool.put now back).2, held := earlier ++ later } := by
  have honly (slots : Slots) : Only connection.address lending
      ⟨lending.pool.setSlots connection.address slots, earlier ++ later, lending.dialing⟩ :=
    .of_setSlots (fun _ hother => by rw [hheld, heldTo_removed_of_ne hother]) fun _ _ => rfl
  obtain ⟨hcounted, hbounded, hroomy, husable, hclosed⟩ := h.accounts connection.address
  rw [hheld, length_heldTo_removed] at hcounted
  rcases put_of_held now h hheld haddress with hput | ⟨hfailed, hopen, hroom, hput⟩
  · rw [hput]
    refine (honly _).balanced h ⟨?_, ?_, ?_, ?_, ?_⟩ ?_
    · simp only [Pool.active_setSlots, Pool.idle_setSlots, if_true]
      omega
    · simp only [Pool.settings_setSlots, Pool.active_setSlots, if_true]
      exact fun hpos => Nat.le_trans (Nat.sub_le _ _) (hbounded hpos)
    · simpa using hroomy
    · simpa using husable
    · simpa using hclosed
    · apply h.apart_of_sublist (hheld ▸ sublist_removed earlier later connection)
      intro other
      rw [Pool.idle_setSlots]
      split
      · next hother => exact hother ▸ List.Sublist.refl _
      · exact List.Sublist.refl _
  · rw [hput]
    refine (honly _).balanced h ⟨?_, ?_, ?_, ?_, ?_⟩ ?_
    · simp only [Pool.active_setSlots, Pool.idle_setSlots, if_true, List.length_cons]
      omega
    · simpa using hbounded
    · simp only [Pool.idle_setSlots, if_true, List.length_cons, Pool.settings_setSlots]
      exact hroom
    · simp only [Pool.idle_setSlots, if_true]
      exact List.forall_mem_cons.mpr ⟨⟨haddress, hfailed, rfl⟩, husable⟩
    · intro hclosed'
      rw [Pool.closed_setSlots, hopen] at hclosed'
      cases hclosed'
    · have hne : (some connection.address : Option SocketAddress) ≠ none := nofun
      have hsource : lending.serials none =
          earlier.map (·.serial) ++ connection.serial :: later.map (·.serial) := by
        rw [serials, hheld, List.map_append, List.map_cons]
      apply h.apart.move hne hsource (List.Sublist.refl _)
      intro place
      cases place with
      | none => simp only [serials, List.map_append, reduceCtorEq, if_false, if_true]
      | some other =>
        by_cases hother : other = connection.address
        · simp [serials, hother, Connection.release, hserial]
        · simp [serials, hother]

/-- A dial that ends gives its slot to a new connection, or frees it. -/
theorem opened_step (now : Nat) (dialed : Except ClientError Stream) {before later : List SocketAddress}
    (h : lending.Balanced) (hdialing : lending.dialing = before ++ address :: later) :
    (∃ connection, lending.pool.opened now address dialed =
        (.ok connection, { lending.pool with made := lending.pool.made + 1 }) ∧
      Only address lending
        ⟨{ lending.pool with made := lending.pool.made + 1 }, connection :: lending.held, before ++ later⟩ ∧
      Balanced ⟨{ lending.pool with made := lending.pool.made + 1 }, connection :: lending.held, before ++ later⟩) ∨
    ∃ err, lending.pool.opened now address dialed = (.error err, lending.pool.forget address) ∧
      Only address lending ⟨lending.pool.forget address, lending.held, before ++ later⟩ ∧
      Balanced ⟨lending.pool.forget address, lending.held, before ++ later⟩ := by
  have hcount (other : SocketAddress) (hother : other ≠ address) :
      (before ++ later).count other = lending.dialing.count other := by
    rw [hdialing, List.count_append, List.count_append, List.count_cons_of_ne (Ne.symm hother)]
  obtain ⟨hcounted, hbounded, hroomy, husable, hclosed⟩ := h.accounts address
  rw [hdialing, List.count_append, List.count_cons_self] at hcounted
  rcases Pool.opened_cases address lending.pool now dialed with ⟨connection, hopened, hserial, rfl, -⟩ | ⟨err, hopened⟩
  · refine Or.inl ⟨connection, hopened, ?_⟩
    have honly : Only connection.address lending
        ⟨{ lending.pool with made := lending.pool.made + 1 }, connection :: lending.held, before ++ later⟩ :=
      ⟨rfl, rfl, fun other hother => ⟨rfl, heldTo_cons_of_ne hother _, hcount other hother⟩⟩
    refine honly.balanced h ⟨?_, hbounded, hroomy, husable, hclosed⟩ ?_
    · rw [length_heldTo_cons, List.count_append]
      change lending.pool.active connection.address = (lending.pool.idle connection.address).length + _ + _
      omega
    · have hnowhere (place : Option SocketAddress) : connection.serial ∉ lending.serials place := fun hmem =>
        Nat.lt_irrefl _ (hserial ▸ h.apart.below place connection.serial hmem)
      apply h.apart.insert none connection.serial hnowhere (Nat.le_succ _) (hserial ▸ Nat.lt_succ_self _)
      intro place
      cases place with
      | none => simp only [serials, List.map_cons, if_true]
      | some other => simp only [serials, reduceCtorEq, if_false]; rfl
  · refine Or.inr ⟨err, hopened, ?_⟩
    have honly : Only address lending ⟨lending.pool.forget address, lending.held, before ++ later⟩ :=
      ⟨by simp only [Pool.settings_forget], by simp only [Pool.closed_forget],
        fun other hother => ⟨Pool.slots_forget_of_ne _ _ _ hother, rfl, hcount other hother⟩⟩
    refine honly.balanced h ⟨?_, ?_, ?_, ?_, ?_⟩ ?_
    · simp only [Pool.active_forget, Pool.idle_forget, if_true, List.count_append]
      omega
    · simp only [Pool.settings_forget, Pool.active_forget, if_true]
      exact fun hpos => Nat.le_trans (Nat.sub_le _ _) (hbounded hpos)
    · simpa using hroomy
    · simpa using husable
    · simpa using hclosed
    · rw [Pool.made_forget]
      refine h.apart_of_sublist (List.Sublist.refl _) fun other => ?_
      simp only [Pool.idle_forget, List.Sublist.refl]

end

theorem take_step (h : lending.Balanced) {now : Nat} {grant : Grant} {pool : Pool}
    (htake : Pool.Takes address lending.pool now grant pool) :
    Only address lending (lending.granted address grant pool) ∧ Balanced (lending.granted address grant pool) := by
  obtain ⟨hcounted, hbounded, hroomy, husable, hclosed⟩ := h.accounts address
  cases htake with
  | closed hshut => exact ⟨⟨rfl, rfl, fun _ _ => ⟨rfl, rfl, rfl⟩⟩, h⟩
  | reuse old connection rest hopen hidle hold hnew =>
    have hmem : connection ∈ lending.pool.idle address := by
      rw [hidle]
      exact List.mem_append_right old List.mem_cons_self
    obtain ⟨rfl, -, -⟩ := husable connection hmem
    have honly : Only connection.address lending (lending.granted connection.address (.reuse connection)
        (lending.pool.setSlots connection.address ⟨rest, lending.pool.active connection.address - old.length⟩)) :=
      .of_setSlots (fun _ hother => heldTo_cons_of_ne hother _) fun _ _ => rfl
    rw [hidle, List.length_append, List.length_cons] at hcounted
    refine honly.balanced h ⟨?_, ?_, ?_, ?_, ?_⟩ ?_
    · simp only [granted, Pool.active_setSlots, Pool.idle_setSlots, if_true, length_heldTo_cons]
      omega
    · simp only [granted, Pool.settings_setSlots, Pool.active_setSlots, if_true]
      exact fun hpos => Nat.le_trans (Nat.sub_le _ _) (hbounded hpos)
    · rw [hidle, List.length_append, List.length_cons] at hroomy
      simp only [granted, Pool.settings_setSlots, Pool.idle_setSlots, if_true]
      omega
    · simp only [granted, Pool.idle_setSlots, if_true]
      exact fun other hother => husable other (by rw [hidle]; simp [hother])
    · intro hshut
      rw [granted, Pool.closed_setSlots, hopen] at hshut
      cases hshut
    · have hne : none ≠ (some connection.address : Option SocketAddress) := nofun
      have hsource : lending.serials (some connection.address) =
          old.map (·.serial) ++ connection.serial :: rest.map (·.serial) := by
        rw [serials, hidle, List.map_append, List.map_cons]
      apply h.apart.move hne hsource (List.sublist_append_right _ _)
      intro place
      cases place with
      | none => simp only [granted, serials, List.map_cons, if_true]
      | some other =>
        by_cases hother : other = connection.address
        · simp [granted, serials, hother]
        · simp [granted, serials, hother]
  | dial hopen hold hroom =>
    have honly : Only address lending (lending.granted address .dial
        (lending.pool.setSlots address ⟨[], lending.pool.active address - (lending.pool.idle address).length + 1⟩)) :=
      .of_setSlots (fun _ _ => rfl) fun _ hother => List.count_cons_of_ne (Ne.symm hother)
    refine honly.balanced h ⟨?_, ?_, ?_, ?_, ?_⟩ ?_
    · simp only [granted, Pool.active_setSlots, Pool.idle_setSlots, if_true, List.length_nil, List.count_cons_self]
      omega
    · simp only [granted, Pool.settings_setSlots, Pool.active_setSlots, if_true]
      omega
    · simp [granted]
    · simp [granted]
    · simp [granted]
    · refine h.apart_of_sublist (List.Sublist.refl _) fun other => ?_
      rw [granted, Pool.idle_setSlots]
      exact cleared_sublist _ _
  | full hopen hold hfull =>
    have honly : Only address lending (lending.granted address (.refused (.tooManyConnections address))
        (lending.pool.setSlots address ⟨[], lending.pool.active address - (lending.pool.idle address).length⟩)) :=
      .of_setSlots (fun _ _ => rfl) fun _ _ => rfl
    refine honly.balanced h ⟨?_, ?_, ?_, ?_, ?_⟩ ?_
    · simp only [granted, Pool.active_setSlots, Pool.idle_setSlots, if_true, List.length_nil]
      omega
    · simp only [granted, Pool.settings_setSlots, Pool.active_setSlots, if_true]
      exact fun hpos => Nat.le_trans (Nat.sub_le _ _) (hbounded hpos)
    · simp [granted]
    · simp [granted]
    · simp [granted]
    · refine h.apart_of_sublist (List.Sublist.refl _) fun other => ?_
      rw [granted, Pool.idle_setSlots]
      exact cleared_sublist _ _

/-! ## All addresses -/

theorem close_step (h : lending.Balanced) : Balanced { lending with pool := lending.pool.close } where
  accounts := by
    intro address
    obtain ⟨hcounted, hbounded, -, -, -⟩ := h.accounts address
    refine ⟨?_, ?_, ?_, ?_, ?_⟩
    · simp only [Pool.active_close, Pool.idle_close, List.length_nil]
      omega
    · rw [Pool.active_close]
      exact fun hpos => Nat.le_trans (Nat.sub_le _ _) (hbounded hpos)
    all_goals simp
  apart := by
    refine h.apart_of_sublist (List.Sublist.refl _) fun other => ?_
    rw [Pool.idle_close]
    exact List.nil_sublist _

/-! ## Any event -/

/-- What holds of a step: the balance is kept, the settings are, a closed pool stays closed, and one address at most
is concerned. -/
structure Keeps (event : Event) (lending : Lending) : Prop where
  balanced : Balanced (step event lending)
  settings : (step event lending).pool.settings = lending.pool.settings
  closed : lending.pool.closed = true → (step event lending).pool.closed = true
  others : event ≠ .close → ∀ other, lending.addressOf event ≠ some other → Same other lending (step event lending)

private theorem Keeps.of_only {event : Event} (haddress : lending.addressOf event = some address)
    (h : Only address lending (step event lending) ∧ Balanced (step event lending)) : Keeps event lending where
  balanced := h.2
  settings := h.1.settings
  closed := h.1.closed.trans
  others := fun _ other hother => h.1.others other fun heq => hother (heq ▸ haddress)

/-- An event of what is not there changes nothing. -/
theorem Keeps.of_nothing {event : Event} (h : lending.Balanced) (hstep : step event lending = lending) :
    Keeps event lending where
  balanced := hstep.symm ▸ h
  settings := by rw [hstep]
  closed := fun hclosed => hstep.symm ▸ hclosed
  others := fun _ other _ => by
    rw [hstep]
    exact ⟨rfl, rfl, rfl⟩

theorem step_keeps (h : lending.Balanced) (event : Event) : Keeps event lending := by
  cases event with
  | take now address => exact .of_only rfl (take_step h (Pool.takes address lending.pool now))
  | opened place now dialed =>
    cases hplace : lending.dialing[place]? with
    | none => exact .of_nothing h (by simp only [step, hplace])
    | some address =>
      obtain ⟨before, later, hdialing, hrest⟩ := split_of_getElem? hplace
      refine .of_only hplace ?_
      rcases opened_step now dialed h hdialing with ⟨connection, hopened, hkept⟩ | ⟨err, hopened, hkept⟩
      · simpa only [step, hplace, hopened, hrest] using hkept
      · simpa only [step, hplace, hopened, hrest] using hkept
  | put place now session lastSeqId failed =>
    cases hplace : lending.held[place]? with
    | none => exact .of_nothing h (by simp only [step, hplace])
    | some connection =>
      obtain ⟨earlier, later, hheld, hrest⟩ := split_of_getElem? hplace
      refine .of_only (by rw [addressOf, hplace, Option.map_some]) ?_
      simpa only [step, hplace, hrest] using put_step now (used session lastSeqId failed connection) h hheld rfl rfl
  | clearIdle address => exact .of_only rfl (clearIdle_step h address)
  | forget place =>
    cases hplace : lending.held[place]? with
    | none => exact .of_nothing h (by simp only [step, hplace])
    | some connection =>
      obtain ⟨earlier, later, hheld, hrest⟩ := split_of_getElem? hplace
      refine .of_only (by rw [addressOf, hplace, Option.map_some]) ?_
      simpa only [step, hplace, hrest] using forget_step h hheld
  | close => exact ⟨close_step h, rfl, fun _ => rfl, fun hne => absurd rfl hne⟩

end Lending
end RpcWire
