import Mathlib.Data.List.Basic
import RpcWire.Proofs.Wrapping

/-! Messages one after the other on one stream. Without envelopes they are one run of octets, and frames may end
anywhere in it; with envelopes each has one of its own. -/
namespace RpcWire

structure Letter where
  wrapping : Wrapping
  payload : Bytes

namespace Letter

def Carried (letters : List Letter) (max : UInt32) (input : Bytes) : TransportKind → Prop
  | .raw => input = letters.flatMap payload
  | .framed => ∃ frames : List Bytes, input = frames.flatMap Framed.encode ∧
      frames.flatten = letters.flatMap payload ∧ ∀ frame ∈ frames, frame.length ≤ max.toNat
  | .header => input = letters.flatMap fun letter => letter.wrapping.wrap letter.payload

/-- What a reader between two messages can read before it enters another envelope. -/
def front (letters : List Letter) : TransportKind → Bytes
  | .raw | .framed => letters.flatMap payload
  | .header => []

def behind (letters : List Letter) : TransportKind → Bytes
  | .raw | .framed => []
  | .header => letters.flatMap fun letter => letter.wrapping.wrap letter.payload

/-- Letters written one after the other are carried. -/
theorem carried_of_fits {letters : List Letter} {max : UInt32} {kind : TransportKind}
    (h : ∀ letter ∈ letters, letter.wrapping.Fits letter.payload kind max) :
    Carried letters max (letters.flatMap fun letter => letter.wrapping.wrap letter.payload) kind := by
  cases kind with
  | raw =>
    apply List.flatMap_congr
    intro letter hm
    have hfits := h letter hm
    cases hw : letter.wrapping with
    | bare => rfl
    | frame => rw [hw] at hfits; exact hfits.elim
    | envelope head => rw [hw] at hfits; exact hfits.elim
  | framed =>
    refine ⟨letters.map payload, ?_, List.flatMap_def.symm, ?_⟩
    · rw [List.flatMap_map]
      apply List.flatMap_congr
      intro letter hm
      have hfits := h letter hm
      cases hw : letter.wrapping with
      | bare => rw [hw] at hfits; exact hfits.elim
      | frame => rfl
      | envelope head => rw [hw] at hfits; exact hfits.elim
    · refine List.forall_mem_map.mpr fun letter hm => ?_
      have hfits := h letter hm
      cases hw : letter.wrapping with
      | bare => rw [hw] at hfits; exact hfits.elim
      | frame => rw [hw] at hfits; exact hfits
      | envelope head => rw [hw] at hfits; exact hfits.elim
  | header => rfl

@[simp] theorem front_nil (kind : TransportKind) : front [] kind = [] := by
  cases kind <;> rfl

@[simp] theorem behind_nil (kind : TransportKind) : behind [] kind = [] := by
  cases kind <;> rfl

/-- Every letter takes octets. -/
theorem length_le {letters : List Letter} (h : ∀ letter ∈ letters, letter.payload ≠ []) (kind : TransportKind) :
    letters.length ≤ (front letters kind).length + (behind letters kind).length := by
  induction letters with
  | nil => exact Nat.zero_le _
  | cons letter rest ih =>
    obtain ⟨hfirst, hothers⟩ := List.forall_mem_cons.mp h
    have hrest := ih hothers
    have hpayload := List.length_pos_iff.mpr hfirst
    have hwrap := letter.wrapping.length_le_wrap letter.payload
    cases kind <;>
      simp only [front, behind, List.flatMap_cons, List.length_append, List.length_cons, List.length_nil] at hrest ⊢ <;>
      omega

end Letter

namespace Channel

/-- A reader in front of some letters faces the first of them. -/
theorem Holds.faces {channel base : Channel} {letter : Letter} {rest : List Letter} {kind : TransportKind}
    (h : channel.Holds base (Letter.front (letter :: rest) kind) (Letter.behind (letter :: rest) kind))
    {max : UInt32} (hcomes : letter.wrapping.Comes letter.payload kind max) :
    channel.Faces base letter.wrapping letter.payload (Letter.front rest kind) (Letter.behind rest kind) := by
  obtain ⟨wrapping, payload⟩ := letter
  cases kind with
  | raw =>
    cases wrapping with
    | bare => exact h
    | frame => exact hcomes.elim
    | envelope head => exact hcomes.elim
  | framed =>
    cases wrapping with
    | bare => exact hcomes.elim
    | frame => exact h
    | envelope head => exact hcomes.elim
  | header =>
    cases wrapping with
    | bare => exact hcomes.elim
    | frame => exact hcomes.elim
    | envelope head => exact ⟨rfl, h⟩

/-- A channel that opens on a stream holds the letters that the stream carries. -/
theorem holds_of_carried {letters : List Letter} {kind : TransportKind} {stream : Stream} {max : UInt32}
    (h : Letter.Carried letters max stream.unread kind) :
    Channel.Holds { transport := .ofStream kind stream max } { transport := .ofStream kind stream max }
      (Letter.front letters kind) (Letter.behind letters kind) := by
  cases kind with
  | raw =>
    refine .of_settled ?_
    rw [Letter.front, Letter.behind, ← (h : stream.unread = _)]
    simp only [settled, holding, Transport.ofStream, Transport.putBack, Transport.holding, List.append_nil,
      List.nil_append]
  | framed =>
    obtain ⟨frames, hunread, hflatten, hfit⟩ := h
    refine ⟨[], frames, ?_, hflatten, hfit⟩
    rw [Letter.behind, List.append_nil, ← hunread]
    rfl
  | header =>
    refine .of_settled ?_
    rw [Letter.front, Letter.behind, ← (h : stream.unread = _)]
    rfl

end Channel
end RpcWire
