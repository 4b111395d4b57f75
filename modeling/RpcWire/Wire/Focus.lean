/-! Running an action on one part of a larger state. -/
namespace RpcWire

/-- Runs `act` on the part that `get` shows. The part is put back whether or not the action fails, so a
failure keeps all that was done before it. -/
@[inline] def onPart {ε σ τ α : Type} (get : σ → τ) (put : σ → τ → σ) (act : EStateM ε τ α) :
    EStateM ε σ α := fun whole =>
  match act (get whole) with
  | .ok result part => .ok result (put whole part)
  | .error err part => .error err (put whole part)

theorem onPart_ok {ε σ τ α : Type} {get : σ → τ} {put : σ → τ → σ} {act : EStateM ε τ α} {whole : σ}
    {part : τ} {result : α} (h : act (get whole) = .ok result part) :
    onPart get put act whole = .ok result (put whole part) := by
  simp [onPart, h]

theorem onPart_error {ε σ τ α : Type} {get : σ → τ} {put : σ → τ → σ} {act : EStateM ε τ α}
    {whole : σ} {part : τ} {err : ε} (h : act (get whole) = .error err part) :
    onPart get put act whole = .error err (put whole part) := by
  simp [onPart, h]

end RpcWire
