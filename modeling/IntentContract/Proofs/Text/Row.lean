import IntentContract.Text.Join
import Mathlib.Data.List.Basic

/-!
# Items in a row

Much of what the library writes is a row of items with a separator between neighbours: the
items of a JSON array, the alternatives of a type. A row is read in one way if each of its items
is, because the separator shows where another item follows. Where an item ends may depend on
what follows it, as the end of a name does, so "what follows" is a parameter `Ends` here. It
must allow for the separator and for what comes behind the row.
-/

namespace IntentContract.Text

variable {α : Type}

/-- **A row**: the characters of items, with a separator between neighbours. -/
def row (sep : List Char) (f : α → List Char) : List α → List Char
  | [] => []
  | a :: as => f a ++ as.flatMap fun b => sep ++ f b

/-- Behind the first item stand the separator and the row of the others. -/
theorem row_cons_cons (sep : List Char) (f : α → List Char) (a b : α) (as : List α) :
    row sep f (a :: b :: as) = f a ++ (sep ++ row sep f (b :: as)) := by
  rw [row, row, List.flatMap_cons, List.append_assoc]

/-- Two rows, one behind the other. -/
theorem row_append (sep : List Char) (f : α → List Char) {as bs : List α} (has : as ≠ [])
    (hbs : bs ≠ []) : row sep f (as ++ bs) = row sep f as ++ (sep ++ row sep f bs) := by
  obtain ⟨a, as, rfl⟩ := List.exists_cons_of_ne_nil has
  obtain ⟨b, bs, rfl⟩ := List.exists_cons_of_ne_nil hbs
  simp only [row, List.cons_append, List.flatMap_append, List.flatMap_cons, List.append_assoc]

theorem row_map {β : Type} (sep : List Char) (f : α → List Char) (g : β → α) (bs : List β) :
    row sep f (bs.map g) = row sep (fun b => f (g b)) bs := by
  cases bs with
  | nil => rfl
  | cons b bs => rw [List.map_cons, row, row, List.flatMap_map]

theorem row_congr (sep : List Char) {f g : α → List Char} {as : List α}
    (h : ∀ a ∈ as, f a = g a) : row sep f as = row sep g as := by
  cases as with
  | nil => rfl
  | cons a as =>
    rw [List.forall_mem_cons] at h
    rw [row, row, h.1, List.flatMap_congr fun b hb => congrArg (sep ++ ·) (h.2 b hb)]

/-- **A row of rows is one row**, if none of them is empty. -/
theorem row_flatMap {β : Type} (sep : List Char) (f : α → List Char) {g : β → List α}
    {bs : List β} (h : ∀ b ∈ bs, g b ≠ []) :
    row sep f (bs.flatMap g) = row sep (fun b => row sep f (g b)) bs := by
  induction bs with
  | nil => rfl
  | cons b bs ih =>
    rw [List.forall_mem_cons] at h
    cases bs with
    | nil => simp [row]
    | cons b' bs =>
      have hrest : (b' :: bs).flatMap g ≠ [] := by
        rw [List.flatMap_cons]
        exact List.append_ne_nil_of_left_ne_nil (h.2 b' List.mem_cons_self) _
      rw [List.flatMap_cons, row_append sep f h.1 hrest, ih h.2, row_cons_cons]

/-- Joined texts are a row. -/
theorem toList_join (separator : String) (ss : List String) :
    (join separator ss).toList = row separator.toList String.toList ss := by
  induction ss with
  | nil => rfl
  | cons s ss ih =>
    cases ss with
    | nil => simp [join, row]
    | cons t ss =>
      rw [join, String.toList_append, String.toList_append, ih, row_cons_cons, List.append_assoc]
      exact List.cons_ne_nil t ss

/-- A character that is neither in the texts nor in what is put between them. -/
theorem not_mem_join {c : Char} {separator : String} (hsep : c ∉ separator.toList)
    {ss : List String} (h : ∀ s ∈ ss, c ∉ s.toList) : c ∉ (join separator ss).toList := by
  rw [toList_join]
  cases ss with
  | nil => exact List.not_mem_nil
  | cons s ss =>
    rw [List.forall_mem_cons] at h
    simpa [row, hsep] using h

section Unique

variable {f : α → List Char} {Ends : List Char → Prop} {c : Char} {sep : List Char}

/-- Behind an item stands a separator, or what comes behind the row. -/
theorem ends_row (hsep : ∀ rest, Ends (c :: sep ++ rest)) (as : List α) {r : List Char}
    (h : Ends r) : Ends (as.flatMap (fun a => c :: sep ++ f a) ++ r) := by
  cases as with
  | nil => exact h
  | cons a as =>
    rw [List.flatMap_cons, List.append_assoc, List.append_assoc]
    exact hsep _

variable {as bs : List α} {r₁ r₂ : List Char}

/-- The items behind separators are read in one way, and what comes behind them as well, if
that does not begin as a separator does. -/
theorem flatMap_append_inj (hsep : ∀ rest, Ends (c :: sep ++ rest))
    (hitem : ∀ a ∈ as, ∀ b ∈ bs, ∀ r₁ r₂, Ends r₁ → Ends r₂ → f a ++ r₁ = f b ++ r₂ →
      a = b ∧ r₁ = r₂)
    (h₁ : Ends r₁) (h₂ : Ends r₂) (hc₁ : r₁.head? ≠ some c) (hc₂ : r₂.head? ≠ some c)
    (h : as.flatMap (fun a => c :: sep ++ f a) ++ r₁
      = bs.flatMap (fun b => c :: sep ++ f b) ++ r₂) :
    as = bs ∧ r₁ = r₂ := by
  induction as generalizing bs with
  | nil =>
    cases bs with
    | nil => exact ⟨rfl, h⟩
    | cons b bs =>
      have hr : r₁ = _ := h
      exact absurd (by rw [hr]; rfl) hc₁
  | cons a as ih =>
    cases bs with
    | nil =>
      have hr : _ = r₂ := h
      exact absurd (by rw [← hr]; rfl) hc₂
    | cons b bs =>
      simp only [List.flatMap_cons, List.append_assoc, List.cons_append, List.cons.injEq,
        List.append_cancel_left_eq, true_and] at h
      rw [List.forall_mem_cons] at hitem
      obtain ⟨rfl, hrest⟩ := hitem.1 b List.mem_cons_self _ _ (ends_row hsep as h₁)
        (ends_row hsep bs h₂) h
      obtain ⟨rfl, rfl⟩ := ih (fun x hx y hy => hitem.2 x hx y (List.mem_cons_of_mem _ hy)) hrest
      exact ⟨rfl, rfl⟩

/-- **A row that is not empty is read in one way**: its items, and what comes behind it. -/
theorem row_append_inj (hsep : ∀ rest, Ends (c :: sep ++ rest)) (has : as ≠ []) (hbs : bs ≠ [])
    (hitem : ∀ a ∈ as, ∀ b ∈ bs, ∀ r₁ r₂, Ends r₁ → Ends r₂ → f a ++ r₁ = f b ++ r₂ →
      a = b ∧ r₁ = r₂)
    (h₁ : Ends r₁) (h₂ : Ends r₂) (hc₁ : r₁.head? ≠ some c) (hc₂ : r₂.head? ≠ some c)
    (h : row (c :: sep) f as ++ r₁ = row (c :: sep) f bs ++ r₂) :
    as = bs ∧ r₁ = r₂ := by
  obtain ⟨a, as, rfl⟩ := List.exists_cons_of_ne_nil has
  obtain ⟨b, bs, rfl⟩ := List.exists_cons_of_ne_nil hbs
  rw [row, row, List.append_assoc, List.append_assoc] at h
  obtain ⟨rfl, hrest⟩ := hitem a List.mem_cons_self b List.mem_cons_self _ _
    (ends_row hsep as h₁) (ends_row hsep bs h₂) h
  obtain ⟨rfl, rfl⟩ := flatMap_append_inj hsep (fun x hx y hy => hitem x
    (List.mem_cons_of_mem _ hx) y (List.mem_cons_of_mem _ hy)) h₁ h₂ hc₁ hc₂ hrest
  exact ⟨rfl, rfl⟩

/-- **A row with a closing character is read in one way**, if no item begins with that. -/
theorem row_stop_inj {stop : Char} (hstop : stop ≠ c)
    (hhead : ∀ a ∈ as ++ bs, ∀ rest, (f a ++ rest).head? ≠ some stop)
    (hitem : ∀ a ∈ as, ∀ b ∈ bs, ∀ r₁ r₂, f a ++ r₁ = f b ++ r₂ → a = b ∧ r₁ = r₂)
    (h : row (c :: sep) f as ++ stop :: r₁ = row (c :: sep) f bs ++ stop :: r₂) :
    as = bs ∧ r₁ = r₂ := by
  have hclosed : ∀ rest : List Char, (stop :: rest).head? ≠ some c := by simpa using hstop
  cases as with
  | nil =>
    cases bs with
    | nil => exact ⟨rfl, (List.cons.inj h).2⟩
    | cons b bs =>
      rw [row, row, List.append_assoc] at h
      exact absurd (by rw [← h]; rfl) (hhead b (by simp) _)
  | cons a as =>
    cases bs with
    | nil =>
      rw [row, row, List.append_assoc] at h
      exact absurd (by rw [h]; rfl) (hhead a (by simp) _)
    | cons b bs =>
      obtain ⟨hitems, hrest⟩ := @row_append_inj α f (fun _ => True) c sep _ _ _ _
        (fun _ => trivial) (List.cons_ne_nil a as) (List.cons_ne_nil b bs)
        (fun x hx y hy r₁ r₂ _ _ => hitem x hx y hy r₁ r₂) trivial trivial (hclosed r₁)
        (hclosed r₂) h
      exact ⟨hitems, (List.cons.inj hrest).2⟩

end Unique

end IntentContract.Text
