/-! Text headers, at most one of a name, in the order of their names. -/
namespace RpcWire

/-- Named texts in strictly increasing order of the names, so that equal contents are equal values. -/
structure Headers where
  entries : List (String × String) := []
  sorted : entries.Pairwise (·.1 < ·.1) := by exact List.Pairwise.nil

namespace Headers

instance : EmptyCollection Headers := ⟨{ entries := [] }⟩

instance : DecidableEq Headers := fun a b =>
  decidable_of_iff (a.entries = b.entries) ⟨fun h => by cases a; cases b; cases h; rfl, fun h => h ▸ rfl⟩

/-- The text under a name. -/
def get? (headers : Headers) (name : String) : Option String :=
  headers.entries.lookup name

/-- Puts an entry in its place; an entry of that name gives way. -/
def place (name text : String) : List (String × String) → List (String × String)
  | [] => [(name, text)]
  | entry :: rest =>
    if name < entry.1 then (name, text) :: entry :: rest
    else if name = entry.1 then (name, text) :: rest
    else entry :: place name text rest

theorem name_of_mem_place {name text : String} {entries : List (String × String)}
    {entry : String × String} (h : entry ∈ place name text entries) :
    entry.1 = name ∨ entry ∈ entries := by
  induction entries with
  | nil => simp_all [place]
  | cons first rest ih =>
    unfold place at h
    grind

theorem pairwise_place {name text : String} {entries : List (String × String)}
    (h : entries.Pairwise (·.1 < ·.1)) : (place name text entries).Pairwise (·.1 < ·.1) := by
  induction entries with
  | nil => simp [place]
  | cons first rest ih =>
    have ⟨before, tail⟩ := List.pairwise_cons.1 h
    unfold place
    split
    · next less =>
      refine List.pairwise_cons.2 ⟨fun entry mem => ?_, h⟩
      rcases List.mem_cons.1 mem with rfl | mem
      · exact less
      · exact String.lt_trans less (before entry mem)
    · next notLess =>
      split
      · next same =>
        exact List.pairwise_cons.2 ⟨fun entry mem => same ▸ before entry mem, tail⟩
      · next differ =>
        have greater : first.1 < name := by
          rcases Std.Trichotomous.rel_or_eq_or_rel_swap (r := (· < · : String → String → Prop))
            (a := first.1) (b := name) with less | same | less
          · exact less
          · exact absurd same.symm differ
          · exact absurd less notLess
        refine List.pairwise_cons.2 ⟨fun entry mem => ?_, ih tail⟩
        rcases name_of_mem_place mem with same | mem
        · exact same ▸ greater
        · exact before entry mem

def insert (headers : Headers) (name text : String) : Headers :=
  ⟨place name text headers.entries, pairwise_place headers.sorted⟩

theorem lookup_cons {name other : String} {text : String} {rest : List (String × String)} :
    ((name, text) :: rest).lookup other = if other = name then some text else rest.lookup other := by
  rw [List.lookup_cons]
  by_cases same : other = name
  · simp only [same, beq_self_eq_true, if_true]
  · simp only [same, beq_eq_false_iff_ne.2 same, if_false]

theorem lookup_place {name text other : String} {entries : List (String × String)} :
    (place name text entries).lookup other = if other = name then some text else entries.lookup other := by
  induction entries with
  | nil => exact lookup_cons
  | cons first rest ih =>
    obtain ⟨label, content⟩ := first
    unfold place
    split
    · rw [lookup_cons]
    · split
      · next same => subst same; grind [lookup_cons]
      · next differ => grind [lookup_cons]

/-- Under its own name stands the new text, under every other name what stood there. -/
theorem get?_insert (headers : Headers) (name text other : String) :
    (headers.insert name text).get? other = if other = name then some text else headers.get? other :=
  lookup_place

/-- Puts in every entry of a list; of two with one name the later one counts. -/
def insertMany (headers : Headers) (entries : List (String × String)) : Headers :=
  entries.foldl (fun (headers : Headers) entry => headers.insert entry.1 entry.2) headers

def ofList (entries : List (String × String)) : Headers :=
  insertMany ∅ entries

end Headers
end RpcWire
