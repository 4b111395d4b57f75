import RpcWire.Proofs.Steps

/-! Two runs side by side. From states that have something in common, the same is done on both sides and the same
comes of it, up to a failure after which the second run may go on by itself. -/
namespace RpcWire

section
variable {ε σ τ α β : Type}

/-- Two runs end alike: both succeed with one value or both fail with one error, or the first stops early. -/
inductive Matches (after failed : σ → τ → Prop) (stop : ε → Prop) :
    EStateM.Result ε σ α → EStateM.Result ε τ α → Prop where
  | ok {value : α} {state : σ} {state' : τ} (h : after state state') :
    Matches after failed stop (.ok value state) (.ok value state')
  | error {err : ε} {state : σ} {state' : τ} (h : failed state state') :
    Matches after failed stop (.error err state) (.error err state')
  | stopped {err : ε} {state : σ} {result : EStateM.Result ε τ α} (h : stop err) :
    Matches after failed stop (.error err state) result

/-- From states that are related before, two actions end alike, in states that are related after a success or after
a failure. -/
def Tracks (before after failed : σ → τ → Prop) (stop : ε → Prop) (act : EStateM ε σ α) (act' : EStateM ε τ α) :
    Prop :=
  ∀ ⦃state : σ⦄ ⦃state' : τ⦄, before state state' → Matches after failed stop (act state) (act' state')

theorem Matches.mono {after after' failed failed' : σ → τ → Prop} {stop stop' : ε → Prop}
    {result : EStateM.Result ε σ α} {result' : EStateM.Result ε τ α} (h : Matches after failed stop result result')
    (hafter : ∀ state state', after state state' → after' state state')
    (hfailed : ∀ state state', failed state state' → failed' state state') (hstop : ∀ err, stop err → stop' err) :
    Matches after' failed' stop' result result' := by
  cases h with
  | ok h => exact .ok (hafter _ _ h)
  | error h => exact .error (hfailed _ _ h)
  | stopped h => exact .stopped (hstop _ h)

theorem Matches.of_ok {after failed : σ → τ → Prop} {stop : ε → Prop} {value value' : α} {state : σ} {state' : τ}
    (h : Matches after failed stop (.ok value state) (.ok value' state')) : value = value' ∧ after state state' := by
  cases h with
  | ok h => exact ⟨rfl, h⟩

theorem Matches.of_ok_left {after failed : σ → τ → Prop} {stop : ε → Prop} {value : α} {state : σ}
    {result : EStateM.Result ε τ α} (h : Matches after failed stop (.ok value state) result) :
    ∃ state', result = .ok value state' ∧ after state state' := by
  cases h with
  | ok h => exact ⟨_, rfl, h⟩

theorem Matches.of_ok_right {after failed : σ → τ → Prop} {stop : ε → Prop} {value : α} {state' : τ}
    {result : EStateM.Result ε σ α} (hstop : ∀ err, ¬stop err)
    (h : Matches after failed stop result (.ok value state')) :
    ∃ state, result = .ok value state ∧ after state state' := by
  cases h with
  | ok h => exact ⟨_, rfl, h⟩
  | stopped h => exact absurd h (hstop _)

theorem Matches.of_error {after failed : σ → τ → Prop} {stop : ε → Prop} {err : ε} {state : σ}
    {result : EStateM.Result ε τ α} (h : Matches after failed stop (.error err state) result) :
    stop err ∨ ∃ state', result = .error err state' ∧ failed state state' := by
  cases h with
  | error h => exact .inr ⟨_, rfl, h⟩
  | stopped h => exact .inl h

/-- Parts that end alike are put back into wholes that do. -/
theorem Matches.onPart {σ' τ' : Type} {get : σ' → σ} {put : σ' → σ → σ'} {get' : τ' → τ} {put' : τ' → τ → τ'}
    {act : EStateM ε σ α} {act' : EStateM ε τ α} {state : σ'} {state' : τ'} {after failed : σ → τ → Prop}
    {whole broken : σ' → τ' → Prop} {stop : ε → Prop}
    (h : Matches after failed stop (act (get state)) (act' (get' state')))
    (hput : ∀ part part', after part part' → whole (put state part) (put' state' part'))
    (hbroken : ∀ part part', failed part part' → broken (put state part) (put' state' part')) :
    Matches whole broken stop (onPart get put act state) (RpcWire.onPart get' put' act' state') := by
  generalize hr : act (get state) = result at h
  generalize hr' : act' (get' state') = result' at h
  cases h with
  | ok hm =>
    rw [onPart_ok hr, onPart_ok hr']
    exact .ok (hput _ _ hm)
  | error hm =>
    rw [onPart_error hr, onPart_error hr']
    exact .error (hbroken _ _ hm)
  | stopped hstop =>
    rw [onPart_error hr]
    exact .stopped hstop

namespace Tracks
variable {before after final failed before' after' failed' : σ → τ → Prop} {stop stop' : ε → Prop}
  {act : EStateM ε σ α} {act' : EStateM ε τ α}

theorem pure (value : α) : Tracks before before failed stop (pure value) (pure value) :=
  fun _ _ h => .ok h

theorem throw (err : ε) (h : ∀ state state', before state state' → failed state state') :
    Tracks before after failed stop (throw err : EStateM ε σ α) (throw err : EStateM ε τ α) :=
  fun _ _ hs => .error (h _ _ hs)

theorem bind {next : α → EStateM ε σ β} {next' : α → EStateM ε τ β} (h : Tracks before after failed stop act act')
    (hnext : ∀ value, Tracks after final failed stop (next value) (next' value)) :
    Tracks before final failed stop (act >>= next) (act' >>= next') := by
  intro state state' hs
  have hact := h hs
  generalize hr : act state = result at hact
  generalize hr' : act' state' = result' at hact
  cases hact with
  | ok hm =>
    rw [bind_of_ok hr, bind_of_ok hr']
    exact hnext _ hm
  | error hm =>
    rw [bind_of_error hr, bind_of_error hr']
    exact .error hm
  | stopped hstop =>
    rw [bind_of_error hr]
    exact .stopped hstop

/-- Relations can be narrowed before and widened after. -/
theorem mono (h : Tracks before after failed stop act act') (hbefore : ∀ state state', before' state state' →
    before state state') (hafter : ∀ state state', after state state' → after' state state')
    (hfailed : ∀ state state', failed state state' → failed' state state') (hstop : ∀ err, stop err → stop' err) :
    Tracks before' after' failed' stop' act act' :=
  fun _ _ hs => (h (hbefore _ _ hs)).mono hafter hfailed hstop

/-- Looking at related states. -/
theorem get {next : σ → EStateM ε σ β} {next' : τ → EStateM ε τ β}
    (h : ∀ state state', before state state' → Tracks before after failed stop (next state) (next' state')) :
    Tracks before after failed stop (get >>= next) (get >>= next') :=
  fun state state' hs => h state state' hs hs

theorem modify {f : σ → σ} {f' : τ → τ} (h : ∀ state state', before state state' → after (f state) (f' state')) :
    Tracks before after failed stop (modify f : EStateM ε σ PUnit) (modify f' : EStateM ε τ PUnit) :=
  fun _ _ hs => .ok (h _ _ hs)

theorem ite {cond : Prop} [Decidable cond] {other : EStateM ε σ α} {other' : EStateM ε τ α}
    (h : cond → Tracks before after failed stop act act')
    (hother : ¬cond → Tracks before after failed stop other other') :
    Tracks before after failed stop (if cond then act else other) (if cond then act' else other') := by
  split
  · exact h ‹_›
  · exact hother ‹_›

/-- A condition is checked before the rest. -/
theorem check {cond : Prop} [Decidable cond] {err : ε} {rest : PUnit → EStateM ε σ α} {rest' : PUnit → EStateM ε τ α}
    (hfailed : ∀ state state', before state state' → failed state state')
    (h : Tracks before after failed stop (rest ⟨⟩) (rest' ⟨⟩)) :
    Tracks before after failed stop (if cond then MonadExcept.throw err >>= rest else rest ⟨⟩)
      (if cond then MonadExcept.throw err >>= rest' else rest' ⟨⟩) :=
  .ite (fun _ => (Tracks.throw err hfailed).bind fun _ => h) fun _ => h

/-- Actions on parts of two states. -/
theorem onPart {σ' τ' : Type} {get : σ' → σ} {put : σ' → σ → σ'} {get' : τ' → τ} {put' : τ' → τ → τ'}
    {whole whole' broken : σ' → τ' → Prop} (h : Tracks before after failed stop act act')
    (hget : ∀ state state', whole state state' → before (get state) (get' state'))
    (hput : ∀ state state' part part', whole state state' → after part part' →
      whole' (put state part) (put' state' part'))
    (hbroken : ∀ state state' part part', whole state state' → failed part part' →
      broken (put state part) (put' state' part')) :
    Tracks whole whole' broken stop (onPart get put act) (RpcWire.onPart get' put' act') :=
  fun state state' hs => (h (hget _ _ hs)).onPart (fun _ _ => hput state state' _ _ hs)
    fun _ _ => hbroken state state' _ _ hs

end Tracks

/-- From a changed state the action does the same, and its end is changed alike. -/
def Commutes (f : σ → σ) (act : EStateM ε σ α) : Prop :=
  ∀ state, act (f state) = match act state with
    | .ok value after => .ok value (f after)
    | .error err after => .error err (f after)

namespace Commutes
variable {f : σ → σ} {act : EStateM ε σ α}

theorem pure (value : α) : Commutes f (pure value : EStateM ε σ α) := fun _ => rfl

theorem throw (err : ε) : Commutes f (throw err : EStateM ε σ α) := fun _ => rfl

theorem bind {next : α → EStateM ε σ β} (h : Commutes f act) (hnext : ∀ value, Commutes f (next value)) :
    Commutes f (act >>= next) := by
  intro state
  have hact := h state
  cases hr : act state with
  | ok value after =>
    rw [hr] at hact
    rw [bind_of_ok hact, bind_of_ok hr]
    exact hnext value after
  | error err after =>
    rw [hr] at hact
    rw [bind_of_error hact, bind_of_error hr]

/-- An action on a part of the state, which the change of the state changes in turn. -/
theorem onPart {τ : Type} {f : τ → τ} {g : σ → σ} {get : τ → σ} {put : τ → σ → τ} (h : Commutes g act)
    (hget : ∀ whole, get (f whole) = g (get whole)) (hput : ∀ whole part, put (f whole) (g part) = f (put whole part)) :
    Commutes f (onPart get put act) := by
  intro whole
  have hact := h (get whole)
  simp only [RpcWire.onPart, hget, hact]
  cases act (get whole) with
  | ok value part => simp only [hput]
  | error err part => simp only [hput]

/-- From a state and a changed one, an action that commutes with every such change ends alike. -/
theorem tracks {ι : Type} {f : ι → σ → σ} {stop : ε → Prop} (h : ∀ i, Commutes (f i) act) :
    Tracks (fun state state' => ∃ i, state' = f i state) (fun state state' => ∃ i, state' = f i state)
      (fun state state' => ∃ i, state' = f i state) stop act act := by
  rintro state _ ⟨i, rfl⟩
  rw [h i state]
  cases act state with
  | ok value after => exact .ok ⟨i, rfl⟩
  | error err after => exact .error ⟨i, rfl⟩

end Commutes

def Fails (p : ε → Prop) (act : EStateM ε σ α) : Prop :=
  ∀ ⦃before : σ⦄ ⦃err : ε⦄ ⦃after : σ⦄, act before = .error err after → p err

namespace Fails
variable {p : ε → Prop} {act : EStateM ε σ α}

theorem pure (value : α) : Fails p (pure value : EStateM ε σ α) := fun _ _ _ h => by cases h

theorem throw {err : ε} (h : p err) : Fails p (throw err : EStateM ε σ α) := fun _ _ _ hr => by
  cases hr
  exact h

theorem bind {next : α → EStateM ε σ β} (h : Fails p act) (hnext : ∀ value, Fails p (next value)) :
    Fails p (act >>= next) := by
  intro before err after hr
  rcases error_of_bind_error hr with hact | ⟨value, middle, -, hrest⟩
  · exact h hact
  · exact hnext value hrest

theorem ite {cond : Prop} [Decidable cond] {other : EStateM ε σ α} (h : Fails p act) (hother : Fails p other) :
    Fails p (if cond then act else other) := by
  split
  · exact h
  · exact hother

theorem get {next : σ → EStateM ε σ β} (h : ∀ state, Fails p (next state)) : Fails p (get >>= next) :=
  fun before _ _ hr => h before hr

theorem modify (f : σ → σ) : Fails p (modify f : EStateM ε σ PUnit) := fun _ _ _ h => by cases h

theorem onPart {get : τ → σ} {put : τ → σ → τ} (h : Fails p act) : Fails p (onPart get put act) := by
  intro whole err after hr
  cases hact : act (get whole) with
  | ok value part =>
    rw [onPart_ok hact] at hr
    cases hr
  | error failure part =>
    rw [onPart_error hact] at hr
    cases hr
    exact h hact

end Fails

def stateOf : EStateM.Result ε σ α → σ
  | .ok _ after => after
  | .error _ after => after

/-- The action leaves what holds of the state, whether it succeeds or fails. -/
def Maintains (p : σ → Prop) (act : EStateM ε σ α) : Prop :=
  ∀ ⦃before : σ⦄, p before → p (stateOf (act before))

namespace Maintains
variable {p : σ → Prop} {act : EStateM ε σ α} {before after : σ}

theorem of_ok {value : α} (h : Maintains p act) (hr : act before = .ok value after) (hbefore : p before) : p after := by
  have hact := h hbefore
  rwa [hr] at hact

theorem of_error {err : ε} (h : Maintains p act) (hr : act before = .error err after) (hbefore : p before) :
    p after := by
  have hact := h hbefore
  rwa [hr] at hact

theorem pure (value : α) : Maintains p (pure value : EStateM ε σ α) := fun _ h => h

theorem throw (err : ε) : Maintains p (throw err : EStateM ε σ α) := fun _ h => h

theorem bind {next : α → EStateM ε σ β} (h : Maintains p act) (hnext : ∀ value, Maintains p (next value)) :
    Maintains p (act >>= next) := by
  intro before hbefore
  cases hr : act before with
  | ok value middle =>
    rw [bind_of_ok hr]
    exact hnext value (h.of_ok hr hbefore)
  | error err middle =>
    rw [bind_of_error hr]
    exact h.of_error hr hbefore

theorem ite {cond : Prop} [Decidable cond] {other : EStateM ε σ α} (h : Maintains p act) (hother : Maintains p other) :
    Maintains p (if cond then act else other) := by
  split
  · exact h
  · exact hother

/-- A condition is checked before the rest. -/
theorem check {cond : Prop} [Decidable cond] {err : ε} {rest : PUnit → EStateM ε σ α} (h : Maintains p (rest ⟨⟩)) :
    Maintains p (if cond then MonadExcept.throw err >>= rest else rest ⟨⟩) :=
  .ite ((throw err).bind fun _ => h) h

theorem get {next : σ → EStateM ε σ β} (h : ∀ state, p state → Maintains p (next state)) :
    Maintains p (get >>= next) :=
  fun before hbefore => h before hbefore hbefore

theorem set {state : σ} (h : p state) : Maintains p (set state : EStateM ε σ PUnit) := fun _ _ => h

theorem modify {f : σ → σ} (h : ∀ state, p state → p (f state)) : Maintains p (modify f : EStateM ε σ PUnit) :=
  fun before hbefore => h before hbefore

theorem onPart {p : τ → Prop} {q : σ → Prop} {get : τ → σ} {put : τ → σ → τ} (h : Maintains q act)
    (hget : ∀ whole, p whole → q (get whole)) (hput : ∀ whole part, p whole → q part → p (put whole part)) :
    Maintains p (onPart get put act) := by
  intro whole hwhole
  have hact := h (hget whole hwhole)
  simp only [RpcWire.onPart]
  cases hr : act (get whole) with
  | ok value part =>
    rw [hr] at hact
    exact hput whole part hwhole hact
  | error err part =>
    rw [hr] at hact
    exact hput whole part hwhole hact

/-- Beside itself, from a state of which something holds. -/
theorem tracks {stop : ε → Prop} (h : Maintains p act) :
    Tracks (fun state state' => state = state' ∧ p state) (fun state state' => state = state' ∧ p state)
      (fun state state' => state = state' ∧ p state) stop act act := by
  rintro state _ ⟨rfl, hstate⟩
  cases hr : act state with
  | ok value after => exact .ok ⟨rfl, h.of_ok hr hstate⟩
  | error err after => exact .error ⟨rfl, h.of_error hr hstate⟩

end Maintains

namespace Tracks
variable {before after failed failed' : σ → τ → Prop} {stop stop' : ε → Prop}

theorem stop_throw {err : ε} (h : stop err) {act' : EStateM ε τ α} :
    Tracks before after failed stop (MonadExcept.throw err : EStateM ε σ α) act' :=
  fun _ _ _ => .stopped h

/-- An action beside itself from one state. -/
theorem same {failed : σ → σ → Prop} {act : EStateM ε σ α} (h : ∀ state, failed state state) :
    Tracks Eq Eq failed stop act act := by
  rintro state _ rfl
  cases act state with
  | ok value after => exact .ok rfl
  | error err after => exact .error (h after)

/-- Nothing needs to be known after failures that stop the first run anyway. -/
theorem stopping {act : EStateM ε σ α} {act' : EStateM ε τ α} (h : Tracks before after failed stop act act')
    (hfails : Fails stop' act) : Tracks before after failed' stop' act act' := by
  intro state state' hs
  have hact := h hs
  generalize hr : act state = result at hact
  generalize act' state' = result' at hact
  cases hact with
  | ok hm => exact .ok hm
  | error _ => exact .stopped (hfails hr)
  | stopped _ => exact .stopped (hfails hr)

end Tracks
end
end RpcWire
