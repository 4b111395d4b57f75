import RpcWire.Proofs.Steps
import RpcWire.Bytes.Word

/-! Blocks of octets read a piece at a time. -/
namespace RpcWire

/-- What reads of the given sizes get of blocks that come in turn: each takes octets from the front of a single block,
a read of size zero takes none, and nothing but empty reads follows the last block. -/
inductive Cuts : List Bytes → List Nat → List Bytes → Prop where
  | stop (blocks : List Bytes) : Cuts blocks [] []
  | idle {blocks pieces : List Bytes} {sizes : List Nat} (later : Cuts blocks sizes pieces) :
    Cuts blocks (0 :: sizes) ([] :: pieces)
  | ended {pieces : List Bytes} {sizes : List Nat} (n : Nat) (later : Cuts [] sizes pieces) :
    Cuts [] (n :: sizes) ([] :: pieces)
  | part {piece rest : Bytes} {blocks pieces : List Bytes} {n : Nat} {sizes : List Nat} (nonempty : piece ≠ [])
    (small : piece.length ≤ n) (more : rest ≠ []) (later : Cuts (rest :: blocks) sizes pieces) :
    Cuts ((piece ++ rest) :: blocks) (n :: sizes) (piece :: pieces)
  | whole {piece : Bytes} {blocks pieces : List Bytes} {n : Nat} {sizes : List Nat} (nonempty : piece ≠ [])
    (small : piece.length ≤ n) (later : Cuts blocks sizes pieces) :
    Cuts (piece :: blocks) (n :: sizes) (piece :: pieces)

namespace Cuts
variable {blocks pieces : List Bytes} {sizes : List Nat}

/-- After the last block, no read gets anything. -/
theorem eq_replicate (h : Cuts [] sizes pieces) : pieces = List.replicate sizes.length [] := by
  generalize hblocks : ([] : List Bytes) = blocks at h
  induction h with
  | stop => rfl
  | idle _ ih => exact congrArg _ (ih hblocks)
  | ended _ _ ih => exact congrArg _ (ih rfl)
  | part => cases hblocks
  | whole => cases hblocks

/-- More reads than there are octets get all of them, and then nothing. -/
theorem flatten_eq (h : Cuts blocks sizes pieces) (hsizes : ∀ n ∈ sizes, n ≠ 0)
    (hmany : blocks.flatten.length < sizes.length) :
    pieces.flatten = blocks.flatten ∧ pieces.getLast? = some [] := by
  induction h with
  | stop => exact absurd hmany (Nat.not_lt_zero _)
  | idle => exact absurd rfl (hsizes 0 List.mem_cons_self)
  | ended n later =>
    rw [later.eq_replicate, ← List.replicate_succ, List.getLast?_replicate, if_neg (Nat.succ_ne_zero _)]
    exact ⟨List.flatten_replicate_nil, rfl⟩
  | @part piece rest blocks pieces n sizes hsome _ _ later ih =>
    have hpos := List.length_pos_iff.mpr hsome
    simp only [List.flatten_cons, List.length_append, List.length_cons] at hmany ih ⊢
    obtain ⟨hall, hlast⟩ := ih (fun m hm => hsizes m (List.mem_cons_of_mem _ hm)) (by omega)
    rw [hall, List.append_assoc, List.getLast?_cons, hlast]
    exact ⟨rfl, rfl⟩
  | @whole piece blocks pieces n sizes hsome _ later ih =>
    have hpos := List.length_pos_iff.mpr hsome
    simp only [List.flatten_cons, List.length_append, List.length_cons] at hmany ih ⊢
    obtain ⟨hall, hlast⟩ := ih (fun m hm => hsizes m (List.mem_cons_of_mem _ hm)) (by omega)
    rw [hall, List.getLast?_cons, hlast]
    exact ⟨rfl, rfl⟩

end Cuts

/-- How many blocks are begun once so many octets are taken off their front. -/
def begun : List Bytes → Nat → Nat
  | [], _ => 0
  | block :: blocks, count => if count = 0 then 0 else begun blocks (count - block.length) + 1

@[simp] theorem begun_zero (blocks : List Bytes) : begun blocks 0 = 0 := by
  cases blocks <;> simp [begun]

/-- The octets of some blocks and more of the next one begin as many blocks and that one. -/
theorem begun_inside (past : List Bytes) {got rest : Bytes} (later : List Bytes) (hgot : got ≠ []) :
    begun (past ++ (got ++ rest) :: later) (past.flatten.length + got.length) = past.length + 1 := by
  have hpos := List.length_pos_iff.mpr hgot
  induction past with
  | nil =>
    have hnone : got.length - (got ++ rest).length = 0 := by simp
    rw [List.nil_append, List.flatten_nil, List.length_nil, Nat.zero_add, begun, if_neg (by omega), hnone, begun_zero]
    rfl
  | cons block past ih =>
    have hcount : (block ++ past.flatten).length + got.length - block.length = past.flatten.length + got.length := by
      rw [List.length_append]
      omega
    rw [List.cons_append, begun, List.flatten_cons, if_neg (by omega), hcount, ih, List.length_cons]

/-- A reader that has blocks ahead, as far as its state tells. Reading takes them piece by piece, in order. -/
structure BlockReader {ε σ : Type} (read : Nat → EStateM ε σ Bytes) (ahead : List Bytes → σ → Prop) : Prop where
  idle (state : σ) : read 0 state = .ok [] state
  ended {n : Nat} {state : σ} (hn : n ≠ 0) (h : ahead [] state) :
    ∃ after, read n state = .ok [] after ∧ ahead [] after
  piece {n : Nat} {block : Bytes} {blocks : List Bytes} {state : σ} (hn : n ≠ 0) (h : ahead (block :: blocks) state) :
    ∃ got rest after, block = got ++ rest ∧ got ≠ [] ∧ got.length ≤ n ∧ read n state = .ok got after ∧
      ahead ([rest].filter (· ≠ []) ++ blocks) after

/-- Reads of any sizes get pieces of the blocks ahead, and leave the rest of them ahead. -/
theorem BlockReader.mapM {ε σ : Type} {read : Nat → EStateM ε σ Bytes} {ahead : List Bytes → σ → Prop}
    (h : BlockReader read ahead) (sizes : List Nat) {blocks : List Bytes} {state : σ} (hstate : ahead blocks state) :
    ∃ pieces left after, sizes.mapM read state = .ok pieces after ∧ Cuts blocks sizes pieces ∧ ahead left after ∧
      pieces.flatten ++ left.flatten = blocks.flatten := by
  induction sizes generalizing blocks state with
  | nil => exact ⟨[], blocks, state, rfl, .stop blocks, hstate, rfl⟩
  | cons n sizes ih =>
    have hrun {got : Bytes} {middle : σ} (hread : read n state = .ok got middle) {pieces : List Bytes} {after : σ}
        (hrest : sizes.mapM read middle = .ok pieces after) :
        (n :: sizes).mapM read state = .ok (got :: pieces) after := by
      rw [List.mapM_cons, bind_of_ok hread, bind_of_ok hrest]
      rfl
    by_cases hn : n = 0
    · subst hn
      obtain ⟨pieces, left, after, hrest, hcuts, hafter, hall⟩ := ih hstate
      exact ⟨[] :: pieces, left, after, hrun (h.idle state) hrest, hcuts.idle, hafter, hall⟩
    · cases blocks with
      | nil =>
        obtain ⟨middle, hread, hmiddle⟩ := h.ended hn hstate
        obtain ⟨pieces, left, after, hrest, hcuts, hafter, hall⟩ := ih hmiddle
        exact ⟨[] :: pieces, left, after, hrun hread hrest, hcuts.ended n, hafter, hall⟩
      | cons block blocks =>
        obtain ⟨got, rest, middle, rfl, hgot, hsmall, hread, hmiddle⟩ := h.piece hn hstate
        obtain ⟨pieces, left, after, hrest, hcuts, hafter, hall⟩ := ih hmiddle
        refine ⟨got :: pieces, left, after, hrun hread hrest, ?_, hafter, ?_⟩
        · by_cases hempty : rest = []
          · subst hempty
            rw [List.append_nil]
            exact hcuts.whole hgot hsmall
          · have hone : [rest].filter (· ≠ []) = [rest] := by simp [hempty]
            rw [hone] at hcuts
            exact hcuts.part hgot hsmall hempty
        · have hrest : ([rest].filter (· ≠ [])).flatten = rest := by
            by_cases hempty : rest = [] <;> simp [hempty]
          rw [List.flatten_cons, List.append_assoc, hall, List.flatten_append, hrest, List.flatten_cons,
            List.append_assoc]

end RpcWire
