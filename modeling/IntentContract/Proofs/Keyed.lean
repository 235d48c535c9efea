import IntentContract.Keyed
import Mathlib.Data.List.Induction

/-!
# The last entry of a key wins

A list of entries can be longer than the map it makes: where keys are repeated, each key has the
value of its **last** entry (`Keyed.get?_ofList`). What is last is said here of lists in general,
since it also decides which of several handlers answers and which of several arguments arrives.
-/

namespace IntentContract

/-! ## Last items -/

section Last

variable {α β : Type} {p : α → Prop} {a b : α} {l : List α}

/-- **The last item with a property**: no item behind it has the property. -/
def IsLast (p : α → Prop) (a : α) (l : List α) : Prop :=
  ∃ before after, l = before ++ a :: after ∧ p a ∧ ∀ b ∈ after, ¬ p b

theorem IsLast.holds (h : IsLast p a l) : p a :=
  have ⟨_, _, _, ha, _⟩ := h
  ha

theorem IsLast.mem (h : IsLast p a l) : a ∈ l := by
  obtain ⟨before, after, rfl, -⟩ := h
  exact List.mem_append_right before List.mem_cons_self

theorem not_isLast_nil : ¬ IsLast p a [] := fun h => List.not_mem_nil h.mem

/-- One more item at the end is the last if it has the property, and else changes nothing. -/
theorem isLast_concat : IsLast p a (l ++ [b]) ↔ (p b ∧ a = b) ∨ (¬ p b ∧ IsLast p a l) := by
  constructor
  · rintro ⟨before, after, h, ha, hafter⟩
    -- Behind `a` there is nothing, and `a` was added, or what is there ends with what was added.
    rcases List.eq_nil_or_concat after with rfl | ⟨more, c, rfl⟩
    · obtain ⟨rfl, hab⟩ := List.append_inj' h rfl
      obtain rfl : b = a := List.singleton_inj.mp hab
      exact .inl ⟨ha, rfl⟩
    · rw [List.concat_eq_append, ← List.cons_append, ← List.append_assoc] at h
      obtain ⟨rfl, hbc⟩ := List.append_inj' h rfl
      obtain rfl : b = c := List.singleton_inj.mp hbc
      rw [List.concat_eq_append, List.forall_mem_append] at hafter
      exact .inr ⟨hafter.2 b List.mem_cons_self, before, more, rfl, ha, hafter.1⟩
  · rintro (⟨hb, rfl⟩ | ⟨hb, before, after, rfl, ha, hafter⟩)
    · exact ⟨l, [], rfl, hb, List.forall_mem_nil _⟩
    · refine ⟨before, after ++ [b], by simp, ha, ?_⟩
      exact List.forall_mem_append.mpr ⟨hafter, List.forall_mem_singleton.mpr hb⟩

theorem isLast_singleton : IsLast p a [b] ↔ p b ∧ a = b := by
  rw [← List.nil_append [b], isLast_concat]
  simp [not_isLast_nil]

/-- There is a last item with a property if there is any. -/
theorem exists_isLast_iff : (∃ a, IsLast p a l) ↔ ∃ a ∈ l, p a := by
  induction l using List.reverseRecOn with
  | nil => simp [not_isLast_nil]
  | append_singleton l b ih =>
    by_cases hb : p b
    · exact iff_of_true ⟨b, isLast_concat.mpr (.inl ⟨hb, rfl⟩)⟩ ⟨b, by simp, hb⟩
    · simp [isLast_concat, hb, ih, or_and_right, exists_or]

/-- The image of a last item is last, if the images have the property just where the items do. -/
theorem IsLast.map {f : α → β} {q : β → Prop} (h : IsLast p a l) (hf : ∀ a, q (f a) ↔ p a) :
    IsLast q (f a) (l.map f) := by
  obtain ⟨before, after, rfl, ha, hafter⟩ := h
  refine ⟨before.map f, after.map f, by simp, (hf a).mpr ha, List.forall_mem_map.mpr ?_⟩
  exact fun b hb hq => hafter b hb ((hf b).mp hq)

/-- The last of what is taken from a list comes from the last item that gives such a thing. -/
theorem isLast_filterMap {f : α → Option β} {q : β → Prop} {y : β}
    (hp : ∀ a, p a ↔ ∃ y, f a = some y ∧ q y) :
    IsLast q y (l.filterMap f) ↔ ∃ a, IsLast p a l ∧ f a = some y := by
  -- From the end: an item that gives `y` is last on both sides, any other is passed over on both.
  induction l using List.reverseRecOn with
  | nil => simp [not_isLast_nil]
  | append_singleton l b ih =>
    rw [List.filterMap_append]
    cases hb : f b with
    | none =>
      have hpb : ¬ p b := by simp [hp, hb]
      simp [hb, isLast_concat, hpb, ih]
    | some z =>
      have hpb : p b ↔ q z := by simp [hp, hb]
      by_cases hz : q z
      · simp [hb, isLast_concat, hpb, hz, eq_comm]
      · simp [hb, isLast_concat, hpb, hz, ih]

/-- Last items by their places. -/
theorem isLast_iff_getElem? :
    IsLast p a l ↔ ∃ i : Nat, l[i]? = some a ∧ p a
      ∧ ∀ (j : Nat) (b : α), i < j → l[j]? = some b → ¬ p b := by
  constructor
  · rintro ⟨before, after, rfl, ha, hafter⟩
    refine ⟨before.length, by simp, ha, fun j b hj hb => hafter b ?_⟩
    rw [List.getElem?_append_right (Nat.le_of_lt hj)] at hb
    obtain ⟨k, hk⟩ : ∃ k, j - before.length = k + 1 := ⟨j - before.length - 1, by omega⟩
    rw [hk, List.getElem?_cons_succ] at hb
    exact List.mem_of_getElem? hb
  · rintro ⟨i, hi, ha, hafter⟩
    obtain ⟨hlt, rfl⟩ := List.getElem?_eq_some_iff.mp hi
    refine ⟨l.take i, l.drop (i + 1), by simp, ha, fun b hb => ?_⟩
    obtain ⟨k, hk⟩ := List.mem_iff_getElem?.mp hb
    rw [List.getElem?_drop] at hk
    exact hafter (i + 1 + k) b (by omega) hk

end Last

/-! ## Last entries -/

/-- **The value of a key is that of its last entry.** -/
theorem Keyed.get?_ofList {β : Type} {entries : List (String × β)} {key : String} {v : β} :
    get? key (ofList entries) = some v ↔ IsLast (fun e => e.1 = key) (key, v) entries := by
  induction entries using List.reverseRecOn with
  | nil => simp [ofList, insertAll, get?, not_isLast_nil]
  | append_singleton entries e ih =>
    rw [isLast_concat, ← ih]
    simp only [ofList, insertAll, List.foldl_append, List.foldl_cons, List.foldl_nil, get?_insert]
    by_cases he : e.1 = key
    · simp [he, Prod.ext_iff, eq_comm]
    · simp [he]

/-! ## Entries in a row -/

namespace Keyed

variable {β : Type}

theorem get?_append (key : String) (l m : List (String × β)) :
    get? key (l ++ m) = (get? key l).or (get? key m) := by
  induction l with
  | nil => rfl
  | cons e l ih =>
    rw [List.cons_append, get?, get?, ih]
    split <;> rfl

/-- **Writing several entries**: a key has the value of its last entry, and what it had if there is
none. -/
theorem get?_insertAll (key : String) (entries m : List (String × β)) :
    get? key (insertAll entries m) = (get? key entries.reverse).or (get? key m) := by
  induction entries generalizing m with
  | nil => rfl
  | cons e entries ih =>
    rw [insertAll, List.foldl_cons, ← insertAll, ih, get?_insert, List.reverse_cons, get?_append]
    by_cases he : e.1 = key <;> cases get? key entries.reverse <;> simp [get?, he]

/-- A list of entries is read from its end. -/
theorem get?_ofList_eq (key : String) (entries : List (String × β)) :
    get? key (ofList entries) = get? key entries.reverse := by
  rw [ofList, get?_insertAll, get?, Option.or_none]

end Keyed

end IntentContract
