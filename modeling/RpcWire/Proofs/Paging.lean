import Mathlib.Data.List.Infix
import RpcWire.Search

/-! The pages of a search. One after the other they hold exactly the documents that match, whatever lower case is
taken to be. -/
namespace RpcWire.Search

private theorem occursIn_iff {needle text : List Char} : occursIn needle text = true ↔ needle <:+: text := by
  induction text with
  | nil => rw [occursIn, List.isEmpty_iff, List.infix_nil]
  | cons c rest ih => rw [occursIn, Bool.or_eq_true, List.isPrefixOf_iff_prefix, ih, List.infix_cons_iff]

/-- The documents whose lower case contains that of the query, in the order of the corpus. -/
def matching (lower : String → String) (corpus : List String) (query : String) : List String :=
  corpus.filter fun document => (lower query).toList <:+: (lower document).toList

theorem hitsBy_eq_matching (lower : String → String) (corpus : List String) (query : String) :
    hitsBy lower corpus query = matching lower corpus query := by
  refine List.filter_congr fun document _ => ?_
  rw [Bool.eq_iff_iff, isMatchBy, occursIn_iff, decide_eq_true_eq]

/-! ## Pages of a list -/

section
variable {α : Type} (found : List α)

/-- Page after page, a list is taken from its front. -/
theorem flatMap_pages (size count : Nat) :
    ((List.range' 1 count).flatMap fun page => (found.drop ((page - 1) * size)).take size) =
      found.take (count * size) := by
  induction count with
  | zero => simp
  | succ count ih =>
    rw [List.range'_1_concat, List.flatMap_append, ih, List.flatMap_singleton, Nat.add_sub_cancel_left, Nat.succ_mul,
      List.take_add]

/-- A page ends with the list or before. -/
theorem page_eq_extract (size : Nat) {number : Nat} (h : 1 ≤ number) :
    (found.drop ((number - 1) * size)).take size =
      found.extract ((number - 1) * size) (min (number * size) found.length) := by
  obtain ⟨before, rfl⟩ := Nat.exists_eq_add_of_le' h
  rw [List.extract_eq_take_drop, Nat.add_sub_cancel, Nat.succ_mul, List.take_eq_take_iff, List.length_drop]
  omega

/-- How many pages of a size a list fills; the last one may have room left. -/
def pageCount (size : Nat) : Nat := (found.length + size - 1) / size

variable {size : Nat} (hsize : 0 < size)
include hsize

private theorem pageCount_le_iff {count : Nat} :
    pageCount found size ≤ count ↔ found.length ≤ count * size := by
  rw [pageCount, Nat.div_le_iff_le_mul_add_pred hsize, Nat.mul_comm]
  omega

private theorem length_le_pages : found.length ≤ pageCount found size * size :=
  (pageCount_le_iff found hsize).mp (Nat.le_refl _)

/-- Behind the last page there is nothing. -/
theorem drop_pages {before : Nat} (h : pageCount found size ≤ before) : found.drop (before * size) = [] :=
  List.drop_eq_nil_of_le ((pageCount_le_iff found hsize).mp h)

end

/-! ## Numbers of a request -/

private theorem one_le_iff {n : Int32} : 1 ≤ n ↔ 1 ≤ n.toNatClampNeg := by
  have hone : (1 : Int32).toInt = 1 := rfl
  rw [Int32.le_iff_toInt_le, ← Int32.toNat_toInt, hone]
  omega

private theorem toNatClampNeg_le (n : Int32) : n.toNatClampNeg ≤ 2147483647 := by
  have hlt := n.toInt_lt
  rw [← Int32.toNat_toInt]
  omega

private theorem toNatClampNeg_ofNat {n : Nat} (h : n ≤ 2147483647) : (Int32.ofNat n).toNatClampNeg = n := by
  rw [← Int32.toNat_toInt, Int32.toInt_ofNat_of_lt (by omega), Int.toNat_natCast]

namespace Request

section
variable (request : Request)

private theorem pagesBefore_eq : request.pagesBefore = request.pageNumber.toNatClampNeg - 1 := by
  rw [pagesBefore, Int32.toNat_toInt]

variable {request}

/-- A number below one stands for the first page. -/
theorem pagesBefore_of_lt (h : request.pageNumber < 1) : request.pagesBefore = 0 := by
  have hlow : ¬1 ≤ request.pageNumber.toNatClampNeg := one_le_iff.not.mp (Int32.not_le.mpr h)
  rw [pagesBefore_eq]
  omega

private theorem pageSize_of_lt (h : request.resultPerPage < 1) : request.pageSize = usualPageSize := by
  rw [pageSize, if_pos h]

variable (request)

private theorem pageSize_of_le (h : 1 ≤ request.resultPerPage) :
    request.pageSize = request.resultPerPage.toNatClampNeg := by
  rw [pageSize, if_neg (Int32.not_lt.mpr h), Int32.toNat_toInt]

private theorem pageSize_le : request.pageSize ≤ 2147483647 := by
  unfold pageSize
  split
  · decide
  · rw [Int32.toNat_toInt]
    exact toNatClampNeg_le _

/-- No page lies further on than a machine word can count. -/
theorem pages_lt : (request.pagesBefore + 1) * request.pageSize < UInt64.size := by
  have hbefore : request.pagesBefore + 1 ≤ 2147483648 := by
    have := toNatClampNeg_le request.pageNumber
    rw [pagesBefore_eq]
    omega
  calc (request.pagesBefore + 1) * request.pageSize
    _ ≤ 2147483648 * 2147483647 := Nat.mul_le_mul hbefore request.pageSize_le
    _ < UInt64.size := by decide

end

end Request

section
variable (lower : String → String) (corpus : List String) (query : String)

private theorem results_runBy (number : Int32) {size : Int32} (hsize : 1 ≤ size) :
    (runBy lower corpus ⟨query, number, size⟩).results =
      ((matching lower corpus query).drop ((number.toNatClampNeg - 1) * size.toNatClampNeg)).take
        size.toNatClampNeg := by
  rw [runBy, Request.pagesBefore_eq, Request.pageSize_of_le ⟨query, number, size⟩ hsize, hitsBy_eq_matching]

private theorem total_runBy (request : Request) :
    (runBy lower corpus request).total.toInt = (min (matching lower corpus request.query).length 2147483647 : Nat) := by
  rw [runBy, hitsBy_eq_matching, Int32.toInt_ofNat_of_lt (by omega)]

private theorem runBy_congr {first second : Request} (hquery : first.query = second.query)
    (hbefore : first.pagesBefore = second.pagesBefore) (hsize : first.pageSize = second.pageSize) :
    runBy lower corpus first = runBy lower corpus second := by
  rw [runBy, runBy, hquery, hbefore, hsize]

/-- As long as pages can be numbered so far, the first pages hold all matches together. -/
theorem flatMap_results {size : Int32} (hsize : 1 ≤ size)
    (hfew : (matching lower corpus query).length ≤ 2147483647 * size.toNatClampNeg) :
    ∃ numbers : List Int32,
      numbers.map Int32.toNatClampNeg =
        List.range' 1 (pageCount (matching lower corpus query) size.toNatClampNeg) ∧
      numbers.flatMap (fun number => (runBy lower corpus ⟨query, number, size⟩).results) =
        matching lower corpus query := by
  have hpos := one_le_iff.mp hsize
  have hlast : pageCount (matching lower corpus query) size.toNatClampNeg ≤ 2147483647 :=
    (pageCount_le_iff _ hpos).mpr hfew
  have hnumber : ∀ n ∈ List.range' 1 (pageCount (matching lower corpus query) size.toNatClampNeg),
      (Int32.ofNat n).toNatClampNeg = n := by
    intro n hn
    have := List.mem_range'_1.mp hn
    exact toNatClampNeg_ofNat (by omega)
  refine ⟨(List.range' 1 (pageCount (matching lower corpus query) size.toNatClampNeg)).map Int32.ofNat, ?_, ?_⟩
  · rw [List.map_map]
    exact (List.map_congr_left hnumber).trans (List.map_id _)
  · rw [List.flatMap_map]
    calc _
      _ = _ := List.flatMap_congr fun n hn => by rw [results_runBy _ _ _ _ hsize, hnumber n hn]
      _ = _ := flatMap_pages (matching lower corpus query) _ _
      _ = matching lower corpus query := List.take_of_length_le (length_le_pages _ hpos)

/-- Whatever lower case is, the matches stand on the pages from one to the last, in the order of the corpus and each on
one page only, as long as pages can be numbered so far, and no match stands on a later page. Every page tells how many
there are, as far as it can be told. A page or a size below one asks for the first page or for ten results. -/
theorem runBy_pages :
    (∀ number size, 1 ≤ number → 1 ≤ size →
      (runBy lower corpus ⟨query, number, size⟩).results =
        (matching lower corpus query).extract ((number.toNatClampNeg - 1) * size.toNatClampNeg)
          (min (number.toNatClampNeg * size.toNatClampNeg) (matching lower corpus query).length)) ∧
    (∀ size, 1 ≤ size → (matching lower corpus query).length ≤ 2147483647 * size.toNatClampNeg →
      ∃ numbers : List Int32,
        numbers.map Int32.toNatClampNeg =
          List.range' 1 (pageCount (matching lower corpus query) size.toNatClampNeg) ∧
        numbers.flatMap (fun number => (runBy lower corpus ⟨query, number, size⟩).results) =
          matching lower corpus query) ∧
    (∀ number size, 1 ≤ size →
      pageCount (matching lower corpus query) size.toNatClampNeg < number.toNatClampNeg →
      (runBy lower corpus ⟨query, number, size⟩).results = []) ∧
    (∀ number size, (runBy lower corpus ⟨query, number, size⟩).total.toInt =
      (min (matching lower corpus query).length 2147483647 : Nat)) ∧
    (∀ number size, number < 1 →
      runBy lower corpus ⟨query, number, size⟩ = runBy lower corpus ⟨query, 1, size⟩) ∧
    (∀ number size, size < 1 →
      runBy lower corpus ⟨query, number, size⟩ = runBy lower corpus ⟨query, number, 10⟩) ∧
    ∀ request : Request, (request.pagesBefore + 1) * request.pageSize < UInt64.size := by
  refine ⟨fun number size hnumber hsize => ?slice, fun size hsize hfew => flatMap_results lower corpus query hsize hfew,
    fun number size hsize hlater => ?later, fun number size => total_runBy lower corpus _,
    fun number size hnumber => ?number, fun number size hsize => ?size, Request.pages_lt⟩
  case slice =>
    exact (results_runBy lower corpus query number hsize).trans (page_eq_extract _ _ (one_le_iff.mp hnumber))
  case later =>
    rw [results_runBy lower corpus query number hsize,
      drop_pages _ (one_le_iff.mp hsize) (Nat.le_sub_one_of_lt hlater), List.take_nil]
  case number =>
    exact runBy_congr lower corpus rfl (Request.pagesBefore_of_lt hnumber) rfl
  case size =>
    exact runBy_congr lower corpus rfl rfl (Request.pageSize_of_lt hsize)

end

/-- The second of two matches stands on the second page of one. -/
example : run ["Tin", "iron", "tint"] ⟨"TIN", 2, 1⟩ = ⟨["tint"], 2⟩ := by decide +kernel

end RpcWire.Search
