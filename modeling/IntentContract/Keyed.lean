/-!
# Entries under text keys

Maps from texts are lists of entries in the order of their keys, by code point. Reading takes the
first entry of a key and inserting replaces it in place, so a list built by insertion holds each
key once.
-/

namespace IntentContract.Keyed

variable {β : Type}

/-- The value under a key. -/
def get? (key : String) : List (String × β) → Option β
  | [] => none
  | (k, v) :: rest => if k = key then some v else get? key rest

/-- Puts a value under a key: in place of an earlier one, else where the order wants it. -/
def insert (key : String) (value : β) : List (String × β) → List (String × β)
  | [] => [(key, value)]
  | (k, v) :: rest =>
    if k = key then (key, value) :: rest
    else if key < k then (key, value) :: (k, v) :: rest
    else (k, v) :: insert key value rest

/-- Inserts entries one after the other: of two with one key the later wins. -/
def insertAll (entries : List (String × β)) (start : List (String × β)) : List (String × β) :=
  entries.foldl (fun m e => insert e.1 e.2 m) start

/-- The entries in the order of their keys, the last of each key. -/
def ofList (entries : List (String × β)) : List (String × β) :=
  insertAll entries []

/-- **Reading after writing**: the written key has the new value, every other key what it had. -/
theorem get?_insert (key k : String) (value : β) (m : List (String × β)) :
    get? k (insert key value m) = if key = k then some value else get? k m := by
  induction m with
  | nil => simp [insert, get?]
  | cons e rest ih =>
    obtain ⟨k', v'⟩ := e
    unfold insert
    split
    · next h => subst h; by_cases hk : k' = k <;> simp [get?, hk]
    · next h =>
      split
      · by_cases hk : key = k <;> simp [get?, hk]
      · by_cases hk : k' = k
        · subst hk
          simp [get?, Ne.symm h]
        · simp [get?, hk, ih]

end IntentContract.Keyed
