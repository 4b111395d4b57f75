import RpcWire.Proofs.Layout.ValueReading

/-! Skipping a value is reading it and forgetting it, so that it takes the same octets and fails the same way. -/
namespace RpcWire
namespace WireM
variable {α β : Type}

private theorem discard_eq_forget (act : WireM α) : discard act = (do let _ ← act) :=
  map_eq_pure_bind _ act

/-- Reading fields one after the other, whatever is kept of them. -/
theorem foldFieldHeads_forget {act : FieldHeader → WireM α} (next : β → FieldHeader → α → β) (most : Nat)
    (init : β) :
    foldFieldHeads (fun _ header => do let _ ← act header) most () =
      (do let _ ← foldFieldHeads (fun acc header => do return next acc header (← act header)) most init) := by
  induction most generalizing init with
  | zero => rfl
  | succ most ih =>
    rw [foldFieldHeads, foldFieldHeads, bind_assoc]
    congr 1
    funext header
    split
    · rfl
    · simp only [bind_assoc, pure_bind]
      congr 1
      funext value
      exact ih (next init header value)

private theorem foldStruct_forget {act : FieldHeader → WireM α} {next : β → FieldHeader → α → β} (init : β) :
    foldStruct () (fun _ header => do let _ ← act header) =
      (do let _ ← foldStruct init fun acc header => do return next acc header (← act header)) := by
  simp only [foldStruct, foldFieldHeads_forget next _ init, bind_assoc, pure_bind]

private theorem times_forget {act : WireM α} (count : Nat) :
    times (do let _ ← act) count = (do let _ ← collect act count) := by
  induction count with
  | zero => rfl
  | succ count ih => simp only [times, collect, ih, bind_assoc, pure_bind]

/-- Skipping goes through a value as reading does. -/
theorem skip_eq_read (depth : Nat) (tag : Tag) : skip depth tag = (do let _ ← Value.readWithin depth tag) := by
  induction depth generalizing tag with
  | zero => rfl
  | succ depth ih =>
    cases tag with
    | struct =>
      simp only [skip, Value.readWithin, ih, bind_assoc, pure_bind]
      exact foldStruct_forget []
    | map =>
      simp only [skip, Value.readWithin, ih, bind_assoc, pure_bind]
      congr 1
      funext header
      rw [← times_forget]
      simp only [bind_assoc, pure_bind]
    | set => simp only [skip, Value.readWithin, ih, bind_assoc, pure_bind, times_forget]
    | list => simp only [skip, Value.readWithin, ih, bind_assoc, pure_bind, times_forget]
    | stop | void => rfl
    | _ => simp only [skip, Value.readWithin, bind_assoc, pure_bind, discard_eq_forget]

/-- A value is skipped as exactly its layout, if as many levels of nesting as it has are allowed. -/
theorem reads_skip {value : Value} {depth : Nat} {codec : Codec} (hidle : codec.Idle)
    (hlegible : value.Legible codec.format codec.limits) (hdepth : value.height ≤ depth) :
    Reads codec (skip depth value.tag) (codec.format.value value) () codec := by
  rw [skip_eq_read]
  exact (Value.reads_value value hidle hlegible hdepth).ending (Reads.pure codec ())

end WireM
end RpcWire
