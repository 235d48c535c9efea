import IntentContract.Proofs.Json.Literal
import IntentContract.Proofs.Text.Row

/-!
# Compact text is read in one way

The compact text of a value without numbers shows by itself where it ends: a string literal at
its closing quote, an array and an object at the bracket that closes them. So two such values
with the same text are the same (`compact_append_inj`). Numbers are left out because nothing
closes them; the record of a contract has none.
-/

namespace IntentContract.Json

/-- **A value without numbers.** -/
inductive Numberless : Json → Prop where
  | null : Numberless .null
  | bool (b : Bool) : Numberless (.bool b)
  | str (s : String) : Numberless (.str s)
  | arr {items : List Json} (h : ∀ v ∈ items, Numberless v) : Numberless (.arr items)
  | obj {fields : List (String × Json)} (h : ∀ f ∈ fields, Numberless f.2) :
      Numberless (.obj fields)

/-! ## Containers are rows -/

/-- The characters of a field. -/
def fieldChars (f : String × Json) : List Char :=
  (literal f.1).toList ++ ':' :: (compact f.2).toList

theorem toList_compactItems (items : List Json) :
    (compactItems items).toList = Text.row [','] (fun v => (compact v).toList) items := by
  induction items with
  | nil => rfl
  | cons v items ih =>
    cases items with
    | nil => simp [compactItems, Text.row]
    | cons w items =>
      rw [compactItems, String.toList_append, String.toList_append, ih, Text.row_cons_cons,
        List.append_assoc]
      · rfl
      · exact List.cons_ne_nil w items

theorem toList_compactFields (fields : List (String × Json)) :
    (compactFields fields).toList = Text.row [','] fieldChars fields := by
  induction fields with
  | nil => rfl
  | cons f fields ih =>
    cases fields with
    | nil => simp [compactFields, fieldChars, Text.row]
    | cons g fields =>
      rw [compactFields, String.toList_append, ih, Text.row_cons_cons]
      · simp [fieldChars]
      · exact List.cons_ne_nil g fields

theorem toList_compact_arr (items : List Json) :
    (compact (.arr items)).toList
      = '[' :: (Text.row [','] (fun v => (compact v).toList) items ++ [']']) := by
  simp [compact, toList_compactItems]

theorem toList_compact_obj (fields : List (String × Json)) :
    (compact (.obj fields)).toList = '\x7b' :: (Text.row [','] fieldChars fields ++ ['\x7d']) := by
  simp [compact, toList_compactFields]

/-! ## One way to read -/

/-- The first character of a value's text, for a value without numbers. -/
def front : Json → Char
  | .null => 'n'
  | .bool true => 't'
  | .bool false => 'f'
  | .arr _ => '['
  | .obj _ => '\x7b'
  | _ => '"'

theorem Numberless.head?_compact {v : Json} (h : v.Numberless) (rest : List Char) :
    ((compact v).toList ++ rest).head? = some v.front := by
  cases h with
  | null => rfl
  | bool b => cases b <;> rfl
  | str s => simp [compact, toList_literal, front]
  | arr => simp [toList_compact_arr, front]
  | obj => simp [toList_compact_obj, front]

/-- Values without numbers whose texts begin alike are of one kind. -/
theorem Numberless.front_eq {v w : Json} (hv : v.Numberless) (hw : w.Numberless)
    {r₁ r₂ : List Char} (h : (compact v).toList ++ r₁ = (compact w).toList ++ r₂) :
    v.front = w.front := by
  have hhead := congrArg List.head? h
  rw [hv.head?_compact, hw.head?_compact] at hhead
  exact Option.some.inj hhead

theorem Numberless.head?_ne_bracket {v : Json} (h : v.Numberless) (rest : List Char) :
    ((compact v).toList ++ rest).head? ≠ some ']' := by
  rw [h.head?_compact]
  cases h with
  | bool b => cases b <;> decide
  | _ => simp [front]

theorem head?_fieldChars_ne_brace (f : String × Json) (rest : List Char) :
    (fieldChars f ++ rest).head? ≠ some '\x7d' := by
  simp [fieldChars, toList_literal]

/-- **A value without numbers is read in one way**, whatever follows it. -/
theorem compact_append_inj {v w : Json} (hv : v.Numberless) (hw : w.Numberless)
    {r₁ r₂ : List Char} (h : (compact v).toList ++ r₁ = (compact w).toList ++ r₂) :
    v = w ∧ r₁ = r₂ := by
  -- the first characters agree, so only values of one kind are to be compared
  induction hv generalizing w r₁ r₂ with
  | null =>
    have hfront := Numberless.null.front_eq hw h
    cases hw with
    | null => exact ⟨rfl, List.append_cancel_left h⟩
    | bool b => cases b <;> cases hfront
    | _ => cases hfront
  | bool b =>
    have hfront := (Numberless.bool b).front_eq hw h
    cases hw with
    | bool b' =>
      obtain rfl : b = b' := by cases b <;> cases b' <;> first | rfl | cases hfront
      exact ⟨rfl, List.append_cancel_left h⟩
    | _ => cases b <;> cases hfront
  | str s =>
    have hfront := (Numberless.str s).front_eq hw h
    cases hw with
    | str t =>
      obtain ⟨rfl, rfl⟩ := literal_append_inj h
      exact ⟨rfl, rfl⟩
    | bool b => cases b <;> cases hfront
    | _ => cases hfront
  | @arr vs hvs ih =>
    have hfront := (Numberless.arr hvs).front_eq hw h
    cases hw with
    | @arr ws hws =>
      rw [toList_compact_arr, toList_compact_arr] at h
      simp only [List.cons_append, List.cons.injEq, true_and, List.append_assoc, List.nil_append]
        at h
      have hhead : ∀ v ∈ vs ++ ws, ∀ rest, ((compact v).toList ++ rest).head? ≠ some ']' :=
        fun v hv => ((List.mem_append.mp hv).elim (hvs v) (hws v)).head?_ne_bracket
      obtain ⟨rfl, rfl⟩ := Text.row_stop_inj (by decide) hhead
        (fun v hv w hw r₁ r₂ heq => ih v hv (hws w hw) heq) h
      exact ⟨rfl, rfl⟩
    | bool b => cases b <;> cases hfront
    | _ => cases hfront
  | @obj fs hfs ih =>
    have hfront := (Numberless.obj hfs).front_eq hw h
    cases hw with
    | @obj gs hgs =>
      rw [toList_compact_obj, toList_compact_obj] at h
      simp only [List.cons_append, List.cons.injEq, true_and, List.append_assoc, List.nil_append]
        at h
      have hfield : ∀ f ∈ fs, ∀ g ∈ gs, ∀ r₁ r₂, fieldChars f ++ r₁ = fieldChars g ++ r₂ →
          f = g ∧ r₁ = r₂ := by
        rintro ⟨k, v⟩ hf ⟨l, w⟩ hg r₁ r₂ heq
        simp only [fieldChars, List.append_assoc, List.cons_append] at heq
        obtain ⟨rfl, hvalue⟩ := literal_append_inj heq
        obtain ⟨rfl, rfl⟩ := ih _ hf (hgs _ hg) (List.cons.inj hvalue).2
        exact ⟨rfl, rfl⟩
      obtain ⟨rfl, rfl⟩ := Text.row_stop_inj (by decide)
        (fun f _ => head?_fieldChars_ne_brace f) hfield h
      exact ⟨rfl, rfl⟩
    | bool b => cases b <;> cases hfront
    | _ => cases hfront

/-- Values without numbers that have the same text are the same. -/
theorem compact_inj {v w : Json} (hv : v.Numberless) (hw : w.Numberless)
    (h : compact v = compact w) : v = w := by
  refine (@compact_append_inj v w hv hw [] [] ?_).1
  rw [h]

end IntentContract.Json
