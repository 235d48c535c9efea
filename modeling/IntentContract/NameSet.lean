/-!
# Sorted sets of names

A set of names is a list in the order of code points without repetition.
-/

namespace IntentContract.NameSet

/-- Adds a name to a set. -/
def insert (name : String) : List String → List String
  | [] => [name]
  | n :: rest =>
    if n = name then n :: rest
    else if name < n then name :: n :: rest
    else n :: insert name rest

/-- The set of the names in a list. -/
def ofList (names : List String) : List String :=
  names.foldl (fun set n => insert n set) []

/-- Adding a name adds that name and no other. -/
theorem mem_insert {x name : String} {set : List String} :
    x ∈ insert name set ↔ x = name ∨ x ∈ set := by
  induction set with
  | nil => simp [insert]
  | cons n rest ih =>
    unfold insert
    split
    · next h => subst h; simp
    · split
      · simp
      · simp only [List.mem_cons, ih]
        exact or_left_comm

/-- The set of a list has the members of the list. -/
theorem mem_ofList {x : String} {names : List String} : x ∈ ofList names ↔ x ∈ names := by
  have go : ∀ (names set : List String),
      x ∈ names.foldl (fun set n => insert n set) set ↔ x ∈ set ∨ x ∈ names := by
    intro names
    induction names with
    | nil => simp
    | cons n rest ih =>
      intro set
      simp only [List.foldl_cons, ih, mem_insert, List.mem_cons]
      exact or_right_comm.trans (or_assoc.trans (Iff.of_eq (by ac_rfl)))
  simpa [ofList] using go names []

end IntentContract.NameSet
