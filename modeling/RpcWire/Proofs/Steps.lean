import RpcWire.Wire.Focus

/-! Sequences of actions on a state, taken apart by how the first one ends. -/
namespace RpcWire

section
variable {ε σ α : Type} (state : σ)

theorem get_ok : (get : EStateM ε σ σ) state = .ok state state := rfl

theorem set_ok (state' : σ) : (set state' : EStateM ε σ PUnit) state = .ok ⟨⟩ state' := rfl

theorem modify_ok (f : σ → σ) : (modify f : EStateM ε σ PUnit) state = .ok ⟨⟩ (f state) := rfl

theorem throw_error (err : ε) : (throw err : EStateM ε σ α) state = .error err state := rfl

end

section
variable {ε σ α β : Type} {first : EStateM ε σ α} {next : α → EStateM ε σ β} {before middle after : σ}

theorem bind_of_ok {result : α} (h : first before = .ok result middle) :
    (first >>= next) before = next result middle := by
  simp only [bind, EStateM.bind, h]

theorem bind_of_error {err : ε} (h : first before = .error err middle) :
    (first >>= next) before = .error err middle := by
  simp only [bind, EStateM.bind, h]

/-- Actions that begin alike go on alike. -/
theorem bind_eq_of_eq (h : first before = first middle) : (first >>= next) before = (first >>= next) middle := by
  simp only [bind, EStateM.bind, h]

/-- A sequence succeeds only if its first action does and the rest succeeds from there. -/
theorem ok_of_bind_ok {result : β} (h : (first >>= next) before = .ok result after) :
    ∃ value middle, first before = .ok value middle ∧ next value middle = .ok result after := by
  cases hf : first before with
  | ok value middle => exact ⟨value, middle, rfl, (bind_of_ok hf).symm.trans h⟩
  | error err middle =>
    rw [bind_of_error hf] at h
    cases h

/-- A sequence fails where its first action fails, or where the rest fails from there. -/
theorem error_of_bind_error {err : ε} (h : (first >>= next) before = .error err after) :
    first before = .error err after ∨
      ∃ value middle, first before = .ok value middle ∧ next value middle = .error err after := by
  cases hf : first before with
  | ok value middle => exact Or.inr ⟨value, middle, rfl, (bind_of_ok hf).symm.trans h⟩
  | error err' middle =>
    rw [bind_of_error hf] at h
    cases h
    exact Or.inl rfl

end

/-- An action gives a result only by succeeding. -/
theorem exists_ok_of_run' {ε σ α : Type} {act : EStateM ε σ α} {before : σ} {value : α}
    (h : act.run' before = some value) : ∃ after, act before = .ok value after := by
  delta EStateM.run' EStateM.run at h
  split at h
  · next after hrun =>
    cases h
    exact ⟨after, hrun⟩
  · cases h

/-- What an action gives and what is to be seen of the state after it. -/
theorem exists_ok_of_look {ε σ α β : Type} {act : EStateM ε σ α} {before : σ} {value : α} {see : σ → β} {seen : β}
    (h : EStateM.run' (do let value ← act; return (value, see (← get))) before = some (value, seen)) :
    ∃ after, act before = .ok value after ∧ see after = seen := by
  obtain ⟨last, hrun⟩ := exists_ok_of_run' h
  obtain ⟨got, after, hact, hrest⟩ := ok_of_bind_ok hrun
  cases hrest
  exact ⟨last, hact, rfl⟩

/-- An action on a part succeeds only as the action of that part does. -/
theorem ok_of_onPart_ok {ε σ τ α : Type} {get : τ → σ} {put : τ → σ → τ} {act : EStateM ε σ α} {whole after : τ}
    {result : α} (h : onPart get put act whole = .ok result after) :
    ∃ part, act (get whole) = .ok result part ∧ after = put whole part := by
  cases hact : act (get whole) with
  | ok value part =>
    rw [onPart_ok hact] at h
    cases h
    exact ⟨part, rfl, rfl⟩
  | error err part =>
    rw [onPart_error hact] at h
    cases h

/-- A sequence on a part of a state is a sequence of actions on that part. -/
theorem onPart_bind {ε σ τ α β : Type} (get : τ → σ) (put : τ → σ → τ)
    (hget : ∀ whole part, get (put whole part) = part)
    (hput : ∀ whole part part', put (put whole part) part' = put whole part') (first : EStateM ε σ α)
    (next : α → EStateM ε σ β) (whole : τ) :
    onPart get put (first >>= next) whole =
      (onPart get put first >>= fun value => onPart get put (next value)) whole := by
  cases hf : first (get whole) with
  | ok value part =>
    rw [bind_of_ok (onPart_ok hf)]
    simp only [onPart, bind_of_ok hf, hget, hput]
  | error err part =>
    rw [bind_of_error (onPart_error hf)]
    simp only [onPart, bind_of_error hf]

/-- From a state, the action succeeds exactly under the condition, and then in one way. -/
def OkIff {ε σ α : Type} (act : EStateM ε σ α) (before : σ) (cond : Prop) (result : α) (after : σ) : Prop :=
  (cond → act before = .ok result after) ∧ ∀ value after, act before = .ok value after → cond

namespace OkIff
variable {ε σ α β : Type} {act : EStateM ε σ α} {before middle after : σ} {cond cond' : Prop} {value : α} {result : β}

theorem always (h : act before = .ok value after) : OkIff act before True value after :=
  ⟨fun _ => h, fun _ _ _ => trivial⟩

theorem congr (h : OkIff act before cond value after) (hc : cond ↔ cond') : OkIff act before cond' value after :=
  ⟨fun c => h.1 (hc.mpr c), fun v a hr => hc.mp (h.2 v a hr)⟩

theorem bind {next : α → EStateM ε σ β} (h : OkIff act before cond value middle)
    (h' : OkIff (next value) middle cond' result after) :
    OkIff (act >>= next) before (cond ∧ cond') result after := by
  constructor
  · rintro ⟨hc, hc'⟩
    rw [bind_of_ok (h.1 hc), h'.1 hc']
  · intro final last hrun
    obtain ⟨mid, state, hfirst, hnext⟩ := ok_of_bind_ok hrun
    have hc := h.2 _ _ hfirst
    rw [h.1 hc] at hfirst
    cases hfirst
    exact ⟨hc, h'.2 _ _ hnext⟩

/-- What a successful run ended in. -/
theorem eq_of_ok {got : α} {last : σ} (h : OkIff act before cond value after) (hr : act before = .ok got last) :
    cond ∧ got = value ∧ last = after := by
  have hc := h.2 _ _ hr
  rw [h.1 hc] at hr
  cases hr
  exact ⟨hc, rfl, rfl⟩

theorem onPart {τ : Type} (get : τ → σ) (put : τ → σ → τ) (whole : τ) (h : OkIff act (get whole) cond value after) :
    OkIff (RpcWire.onPart get put act) whole cond value (put whole after) := by
  refine ⟨fun hc => onPart_ok (h.1 hc), fun v a hr => ?_⟩
  cases hact : act (get whole) with
  | ok got part => exact h.2 _ _ hact
  | error err part =>
    rw [onPart_error hact] at hr
    cases hr

end OkIff
end RpcWire
