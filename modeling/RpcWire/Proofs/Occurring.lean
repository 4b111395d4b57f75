import Mathlib.Data.List.TakeWhile
import RpcWire.Proofs.Paging

/-! Where a query occurs in a document. Lower case goes character by character, but for the capital sigma, which looks
at its neighbours: an occurrence is found where the same sigmas are final in the query and in the document. -/
namespace RpcWire

namespace Lowercase

def plain (text : List Char) : List Char := text.flatMap ofChar

private theorem plain_cons (c : Char) (rest : List Char) : plain (c :: rest) = ofChar c ++ plain rest :=
  List.flatMap_cons

private theorem plain_append (first second : List Char) :
    plain (first ++ second) = plain first ++ plain second :=
  List.flatMap_append

/-- Whether a capital sigma takes its final form between two texts; the first has its nearest character in front. -/
def isFinal (before after : List Char) : Bool := startsCased before && !startsCased after

/-- A character of a text in lower case, and whether it is a capital sigma in its final form. -/
structure Letter where
  plain : Char
  final : Bool
  plain_of_final : final = true → plain = 'σ'

namespace Letter

def sigma (final : Bool) : Letter := ⟨'σ', final, fun _ => rfl⟩

def ofPlain (c : Char) : Letter := ⟨c, false, nofun⟩

def written (letter : Letter) : Char := if letter.final then 'ς' else letter.plain

/-- Of two letters that are the same by themselves, both or none are final if they are written alike. -/
theorem written_eq_iff {first second : Letter} (h : first.plain = second.plain) :
    first.written = second.written ↔ first.final = second.final := by
  obtain ⟨plain, final, hsigma⟩ := first
  obtain ⟨_, final', hsigma'⟩ := second
  cases h
  -- Where one alone is final, both are sigmas by themselves, and the forms differ.
  cases final <;> cases final' <;> simp_all [written]

/-- Letters that are the same by themselves stand at the front of others as they are written if the same of them are
final. -/
theorem written_prefix_iff {first second : List Letter}
    (h : first.map Letter.plain <+: second.map Letter.plain) :
    first.map written <+: second.map written ↔ first.map final <+: second.map final := by
  induction first generalizing second with
  | nil => simp
  | cons letter rest ih =>
    cases second with
    | nil => simp at h
    | cons letter' rest' =>
      simp only [List.map_cons, List.cons_prefix_cons] at h ⊢
      rw [written_eq_iff h.1, ih h.2]

end Letter

def lettersBetween (before after : List Char) : List Char → List Letter
  | [] => []
  | c :: rest =>
    (if c = 'Σ' then [.sigma (isFinal before (rest ++ after))] else (ofChar c).map .ofPlain) ++
      lettersBetween (c :: before) after rest

def letters (text : List Char) : List Letter := lettersBetween [] [] text

/-- For each character of a text in lower case, whether it is a capital sigma in its final form. -/
def finals (text : List Char) : List Bool := (letters text).map Letter.final

private theorem ofChar_sigma : ofChar 'Σ' = ['σ'] := by decide +kernel

/-- The places of a character in a text, from the front. -/
theorem forall_split_cons {p : List Char → List Char → Prop} {c : Char} {rest : List Char} {wanted : Char} :
    (∀ front back, c :: rest = front ++ wanted :: back → p front back) ↔
      (c = wanted → p [] rest) ∧ ∀ front back, rest = front ++ wanted :: back → p (c :: front) back := by
  constructor
  · intro h
    exact ⟨fun hc => h [] rest (by rw [hc, List.nil_append]),
      fun front back hsplit => h (c :: front) back (by rw [hsplit, List.cons_append])⟩
  · rintro ⟨hhead, hrest⟩ front back hsplit
    cases front with
    | nil =>
      obtain ⟨hc, rfl⟩ := List.cons_eq_cons.mp hsplit
      exact hhead hc
    | cons first front =>
      obtain ⟨rfl, htail⟩ := List.cons_eq_cons.mp hsplit
      exact hrest front back htail

section
variable (before after : List Char)

private theorem plain_lettersBetween (text : List Char) :
    (lettersBetween before after text).map Letter.plain = plain text := by
  induction text generalizing before with
  | nil => rfl
  | cons c rest ih =>
    rw [lettersBetween, List.map_append, ih, plain_cons]
    congr 1
    split
    · next hc => rw [hc, ofChar_sigma]; rfl
    · rw [List.map_map]; exact List.map_id _

private theorem length_lettersBetween (text : List Char) :
    (lettersBetween before after text).length = (plain text).length := by
  rw [← plain_lettersBetween before after text, List.length_map]

private theorem written_lettersBetween (text : List Char) :
    (lettersBetween before [] text).map Letter.written = ofListAfter before text := by
  induction text generalizing before with
  | nil => rfl
  | cons c rest ih =>
    rw [lettersBetween, List.map_append, ih, ofListAfter, List.append_nil]
    congr 1
    split
    · rfl
    · rw [List.map_map]; exact List.map_id _

private theorem lettersBetween_append (first second : List Char) :
    lettersBetween before after (first ++ second) =
      lettersBetween before (second ++ after) first ++ lettersBetween (first.reverse ++ before) after second := by
  induction first generalizing before with
  | nil => rfl
  | cons c rest ih =>
    rw [List.cons_append, lettersBetween, lettersBetween, ih]
    simp only [List.append_assoc, List.reverse_cons, List.singleton_append]

/-- The same letters of a text are final between two texts and two others if each capital sigma has the same form. -/
theorem finals_between_eq_iff (text before' after' : List Char) :
    (lettersBetween before after text).map Letter.final = (lettersBetween before' after' text).map Letter.final ↔
      ∀ front back, text = front ++ 'Σ' :: back →
        isFinal (front.reverse ++ before) (back ++ after) = isFinal (front.reverse ++ before') (back ++ after') := by
  -- On the text, which moves in front character by character; only a sigma's own letter depends on what is around it.
  induction text generalizing before before' with
  | nil => simp [lettersBetween]
  | cons c rest ih =>
    rw [forall_split_cons, lettersBetween, lettersBetween, List.map_append, List.map_append]
    have hrest := ih (c :: before) (c :: before')
    simp only [List.reverse_cons, List.append_assoc, List.singleton_append]
    by_cases hc : c = 'Σ'
    · rw [if_pos hc, if_pos hc, ← hrest]
      simp [hc, Letter.sigma]
    · rw [if_neg hc, if_neg hc, ← hrest, List.append_cancel_left_eq]
      simp [hc]

/-- Without a capital sigma, lower case is that of every character by itself. -/
theorem ofListAfter_of_not_mem {text : List Char} (h : 'Σ' ∉ text) : ofListAfter before text = plain text := by
  induction text generalizing before with
  | nil => rfl
  | cons c rest ih =>
    obtain ⟨hc, hrest⟩ := not_or.mp (List.mem_cons.not.mp h)
    rw [ofListAfter, if_neg (Ne.symm hc), ih _ hrest, plain_cons]

end

/-! ## Words -/

def startsWithSigma (text : List Char) : Bool := (text.dropWhile isIgnorable).head? = some 'Σ'

private theorem isIgnorable_sigma : isIgnorable 'Σ' = false := by decide +kernel

/-- What follows a text does not matter for its case, unless the text is passed over to its end. -/
theorem startsCased_append {first second : List Char}
    (h : first.all isIgnorable = true → startsCased second = false) :
    startsCased (first ++ second) = startsCased first := by
  unfold startsCased at h ⊢
  cases hfirst : first.dropWhile isIgnorable with
  | nil =>
    have hall := List.dropWhile_eq_nil_iff.mp hfirst
    rw [List.dropWhile_append_of_pos hall, h (List.all_eq_true.mpr hall)]
  | cons c rest => rw [List.dropWhile_append, hfirst]; rfl

private theorem startsWithSigma_append {first second : List Char} (h : first.all isIgnorable = true) :
    startsWithSigma (first ++ 'Σ' :: second) = true := by
  have hsigma : ¬isIgnorable 'Σ' = true := by rw [isIgnorable_sigma]; decide
  rw [startsWithSigma, List.dropWhile_append_of_pos (List.all_eq_true.mp h), List.dropWhile_cons_of_neg hsigma]
  rfl

end Lowercase

namespace Search

open Lowercase

private theorem mem_hits_iff {corpus : List String} {query document : String} :
    document ∈ hits corpus query ↔ document ∈ corpus ∧ ofList query.toList <:+: ofList document.toList := by
  rw [hits, hitsBy_eq_matching, matching, List.mem_filter, decide_eq_true_eq, ofString, ofString,
    String.toList_ofList, String.toList_ofList]

section
variable (query document : List Char) (place : Nat)

/-- The query stands at a place of the document in lower case, where every character is lowered by itself. -/
def StandsAt : Prop := plain query <+: (plain document).drop place

/-- The letters of the query are final sigmas where those of the document from a place on are. -/
def SigmasAgreeAt : Prop := finals query <+: (finals document).drop place

variable {query document place}

/-- Where the query stands by itself, it stands in full lower case if the sigmas agree. -/
theorem StandsAt.agree_iff (h : StandsAt query document place) :
    SigmasAgreeAt query document place ↔ ofList query <+: (ofList document).drop place := by
  have hwritten (text : List Char) : ofList text = (letters text).map Letter.written :=
    (written_lettersBetween [] text).symm
  rw [StandsAt, ← plain_lettersBetween [] [] query, ← plain_lettersBetween [] [] document,
    ← List.map_drop] at h
  rw [SigmasAgreeAt, finals, finals, hwritten, hwritten, ← List.map_drop, ← List.map_drop]
  exact (Letter.written_prefix_iff h).symm

variable {front back : List Char}

private theorem standsAt_of_literal (h : document = front ++ query ++ back) :
    StandsAt query document (plain front).length := by
  rw [StandsAt, h, plain_append, plain_append, List.append_assoc, List.drop_left]
  exact List.prefix_append ..

private theorem agree_iff_of_literal (h : document = front ++ query ++ back) :
    SigmasAgreeAt query document (plain front).length ↔
      ∀ before after, query = before ++ 'Σ' :: after →
        isFinal (before.reverse ++ front.reverse) (after ++ back) = isFinal before.reverse after := by
  have hletters : (letters document).drop (plain front).length =
      lettersBetween front.reverse back query ++
        lettersBetween (query.reverse ++ front.reverse) [] back := by
    rw [h, List.append_assoc, letters, lettersBetween_append,
      List.drop_left' (length_lettersBetween ..), lettersBetween_append, List.append_nil,
      List.append_nil]
  have hlength : ((letters query).map Letter.final).length =
      ((lettersBetween front.reverse back query).map Letter.final).length := by
    rw [List.length_map, List.length_map, letters, length_lettersBetween,
      length_lettersBetween]
  have hsplits := finals_between_eq_iff front.reverse back query [] []
  simp only [List.append_nil] at hsplits
  rw [SigmasAgreeAt, finals, finals, ← List.map_drop, hletters, List.map_append, List.prefix_iff_eq_take, hlength,
    List.take_left, ← hsplits]
  exact eq_comm

/-- A literal hit at the bounds of a word, or of no capital sigma at its ends. -/
theorem agree_of_unbroken (h : document = front ++ query ++ back)
    (hfront : startsWithSigma query = true → startsCased front.reverse = false)
    (hback : startsWithSigma query.reverse = true → startsCased back = false) :
    SigmasAgreeAt query document (plain front).length := by
  refine (agree_iff_of_literal h).mpr fun before after hsplit => ?_
  have hbefore : startsCased (before.reverse ++ front.reverse) = startsCased before.reverse := by
    refine startsCased_append fun hall => hfront ?_
    rw [hsplit]
    exact startsWithSigma_append (by rwa [List.all_reverse] at hall)
  have hafter : startsCased (after ++ back) = startsCased after := by
    refine startsCased_append fun hall => hback ?_
    rw [hsplit, List.reverse_append, List.reverse_cons, List.append_assoc]
    exact startsWithSigma_append (by rwa [List.all_reverse])
  rw [isFinal, isFinal, hbefore, hafter]

end

/-- A document is found wherever the query stands in it by its letters and the same capital sigmas are final in both,
and only there does it stand in full lower case. It stands where it occurs literally; its sigmas agree there if each
has the form that it has in the query alone, as they do unless a capital sigma begins or ends the query amid a word. -/
theorem mem_hits_of_sigmas_agree {corpus : List String} {query document : String} (h : document ∈ corpus) :
    (∀ place, StandsAt query.toList document.toList place →
      (SigmasAgreeAt query.toList document.toList place ↔
        ofList query.toList <+: (ofList document.toList).drop place) ∧
      (SigmasAgreeAt query.toList document.toList place → document ∈ hits corpus query)) ∧
    (∀ front back, document.toList = front ++ query.toList ++ back →
      StandsAt query.toList document.toList (plain front).length ∧
      (SigmasAgreeAt query.toList document.toList (plain front).length ↔
        ∀ before after, query.toList = before ++ 'Σ' :: after →
          isFinal (before.reverse ++ front.reverse) (after ++ back) = isFinal before.reverse after) ∧
      ((startsWithSigma query.toList = true → startsCased front.reverse = false) →
        (startsWithSigma query.toList.reverse = true → startsCased back = false) → document ∈ hits corpus query)) ∧
    ('Σ' ∉ query.toList → 'Σ' ∉ document.toList →
      (document ∈ hits corpus query ↔ plain query.toList <:+: plain document.toList)) := by
  have hfound {place : Nat} (hstands : StandsAt query.toList document.toList place)
      (hagree : SigmasAgreeAt query.toList document.toList place) : document ∈ hits corpus query :=
    mem_hits_iff.mpr ⟨h, (hstands.agree_iff.mp hagree).isInfix.trans (List.drop_suffix ..).isInfix⟩
  refine ⟨fun place hstands => ⟨hstands.agree_iff, hfound hstands⟩, fun front back hliteral => ?_,
    fun hquery hdocument => ?_⟩
  · have hstands := standsAt_of_literal hliteral
    exact ⟨hstands, agree_iff_of_literal hliteral,
      fun hfront hback => hfound hstands (agree_of_unbroken hliteral hfront hback)⟩
  · rw [mem_hits_iff, and_iff_right h, ofList, ofList, ofListAfter_of_not_mem _ hquery,
      ofListAfter_of_not_mem _ hdocument]

/-- A whole word is found with its final sigma. -/
theorem mem_hits_whole_word :
    "ὁ ΟΔΥΣΣΕΥΣ ἦλθε" ∈ ["ΝΑΥΣ", "ὁ ΟΔΥΣΣΕΥΣ ἦλθε"] ∧ startsCased " ἦλθε".toList = false ∧
      "ὁ ΟΔΥΣΣΕΥΣ ἦλθε" ∈ hits ["ΝΑΥΣ", "ὁ ΟΔΥΣΣΕΥΣ ἦλθε"] "ΟΔΥΣΣΕΥΣ" := by
  have hmem : "ὁ ΟΔΥΣΣΕΥΣ ἦλθε" ∈ ["ΝΑΥΣ", "ὁ ΟΔΥΣΣΕΥΣ ἦλθε"] := .tail _ (.head _)
  have hback : startsCased " ἦλθε".toList = false := by decide +kernel
  refine ⟨hmem, hback, ?_⟩
  have hliteral : "ὁ ΟΔΥΣΣΕΥΣ ἦλθε".toList = "ὁ ".toList ++ "ΟΔΥΣΣΕΥΣ".toList ++ " ἦλθε".toList := by
    decide +kernel
  have hsigma : startsWithSigma "ΟΔΥΣΣΕΥΣ".toList = false := by decide +kernel
  refine ((mem_hits_of_sigmas_agree hmem).2.1 _ _ hliteral).2.2 (fun hstarts => ?_) fun _ => hback
  rw [hsigma] at hstarts
  cases hstarts

/-- In the midst of a word the sigma that ends the query is not final, though it is in the query: the document that
contains the query is not found. -/
theorem literal_hit_hidden_by_sigma :
    "ΑΣ".toList <:+: "ΑΣΑ".toList ∧ ofList "ΑΣ".toList = "ας".toList ∧ ofList "ΑΣΑ".toList = "ασα".toList ∧
      hits ["ΑΣΑ"] "ΑΣ" = [] ∧
      ¬∀ (corpus : List String) (query document : String), document ∈ corpus →
        query.toList <:+: document.toList → document ∈ hits corpus query := by
  have hliteral : "ΑΣ".toList <:+: "ΑΣΑ".toList := by decide +kernel
  have hnone : hits ["ΑΣΑ"] "ΑΣ" = [] := by decide +kernel
  refine ⟨hliteral, by decide +kernel, by decide +kernel, hnone, fun hall => ?_⟩
  have hmem := hall ["ΑΣΑ"] "ΑΣ" "ΑΣΑ" (.head _) hliteral
  rw [hnone] at hmem
  cases hmem

end Search
end RpcWire
