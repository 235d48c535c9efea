import IntentContract.Generated.Names
import Mathlib.Data.List.Infix

/-!
# What a dashed name keeps of the name

The names of generated files are read off the contract's name character by character, with a look
at the neighbours on both sides: a capital is made small, an underscore becomes a dash, and in
front of a capital that begins a word a dash is put in.

One step thus writes one character, and at most one dash in front of it (`dashedFrom_cons`). A dash
is only ever put in behind a letter or a digit and in front of a letter, so it never meets another
dash nor the start of the name. The dashes at the start of a dashed name, and those side by side,
are therefore the ones the name has.
-/

namespace IntentContract

/-- A character that is written as a dash. -/
def IsDash (c : Char) : Prop :=
  c = '-' ∨ c = '_'

instance : DecidablePred IsDash := fun c =>
  inferInstanceAs (Decidable (c = '-' ∨ c = '_'))

/-- **A character in lower case**: neither a capital nor an underscore. -/
def IsPlain (c : Char) : Prop :=
  c.isUpper = false ∧ c ≠ '_'

/-! ## Capitals made small -/

variable {c d : Char} {before : Option Char} {cs : List Char}

theorem isUpper_iff : c.isUpper = true ↔ 'A'.val ≤ c.val ∧ c.val ≤ 'Z'.val :=
  decide_eq_true_iff

theorem isLower_iff : c.isLower = true ↔ 'a'.val ≤ c.val ∧ c.val ≤ 'z'.val :=
  Bool.and_eq_true_iff.trans (and_congr decide_eq_true_iff decide_eq_true_iff)

theorem toLower_of_not_isUpper (h : ¬ c.isUpper = true) : c.toLower = c :=
  dif_neg (mt isUpper_iff.mpr h)

theorem isLower_toLower (h : c.isUpper = true) : c.toLower.isLower = true := by
  have hval : c.toLower.val = c.val + ('a'.val - 'A'.val) :=
    congrArg Char.val (dif_pos (isUpper_iff.mp h))
  rw [isLower_iff, hval]
  grind [isUpper_iff]

theorem isUpper_toLower (c : Char) : c.toLower.isUpper = false := by
  rw [Bool.eq_false_iff]
  by_cases hupper : c.isUpper = true
  · have hlower := isLower_iff.mp (isLower_toLower hupper)
    exact fun h => absurd (isUpper_iff.mp h) (by grind)
  · rwa [toLower_of_not_isUpper hupper]

/-- Only a letter is made small, and it stays a letter. -/
theorem toLower_eq_iff (hd : d.isAlpha = false) : c.toLower = d ↔ c = d := by
  obtain ⟨hdupper, hdlower⟩ : d.isUpper = false ∧ d.isLower = false := Bool.or_eq_false_iff.mp hd
  by_cases hupper : c.isUpper = true
  · constructor
    · rintro rfl
      rw [isLower_toLower hupper] at hdlower
      cases hdlower
    · rintro rfl
      rw [hupper] at hdupper
      cases hdupper
  · rw [toLower_of_not_isUpper hupper]

/-! ## One step -/

/-- What is written for a character. -/
def dashedChar (c : Char) : Char :=
  if c = '_' then '-' else c.toLower

/-- The dash put in front of a character, if it begins a word. -/
def divider (before : Option Char) (c : Char) (after : Option Char) : List Char :=
  if c.isUpper && beginsWord before after then ['-'] else []

/-- **One step** writes one character, and perhaps a dash in front of it. -/
theorem dashedFrom_cons (before : Option Char) (c : Char) (rest : List Char) :
    dashedFrom before (c :: rest)
      = divider before c rest.head? ++ dashedChar c :: dashedFrom (some c) rest := by
  by_cases hupper : c.isUpper = true
  · have hunder : c ≠ '_' := by
      rintro rfl
      exact absurd hupper (by decide)
    cases hbegins : beginsWord before rest.head? <;>
      simp [dashedFrom, divider, dashedChar, hupper, hunder, hbegins]
  · by_cases hunder : c = '_'
    · simp [dashedFrom, divider, dashedChar, hunder]
    · simp [dashedFrom, divider, dashedChar, hupper, hunder, toLower_of_not_isUpper]

theorem isPlain_dashedChar (c : Char) : IsPlain (dashedChar c) := by
  unfold dashedChar
  split
  · exact ⟨by decide, by decide⟩
  · next h => exact ⟨isUpper_toLower c, mt (toLower_eq_iff (by decide)).mp h⟩

theorem dashedChar_eq_dash_iff : dashedChar c = '-' ↔ IsDash c := by
  unfold dashedChar IsDash
  split
  · next h => simp [h]
  · next h => simp [h, toLower_eq_iff (show '-'.isAlpha = false by decide)]

theorem dashedChar_of_isPlain (h : IsPlain c) : dashedChar c = c := by
  rw [dashedChar, if_neg h.2, toLower_of_not_isUpper (by simp [h.1])]

/-- A dash is put in only behind a letter or a digit. -/
theorem divider_of_isDash (h : ∀ b ∈ before, IsDash b) (c : Char) (after : Option Char) :
    divider before c after = [] := by
  have hbegins : beginsWord before after = false := by
    cases before with
    | none => rfl
    | some b =>
      obtain rfl | rfl := h b rfl
      · rfl
      · rfl
  rw [divider, hbegins, Bool.and_false]
  rfl

/-- A dash is put in only in front of a letter. -/
theorem divider_eq_or (before : Option Char) (c : Char) (after : Option Char) :
    divider before c after = [] ∨ divider before c after = ['-'] ∧ ¬ IsDash c := by
  unfold divider
  split
  · next h =>
    have hupper := (Bool.and_eq_true_iff.mp h).1
    refine .inr ⟨rfl, ?_⟩
    rintro (rfl | rfl)
    · exact absurd hupper (by decide)
    · exact absurd hupper (by decide)
  · exact .inl rfl

/-! ## All steps -/

/-- What is written is in lower case. -/
theorem isPlain_dashedFrom (before : Option Char) (cs : List Char) :
    ∀ d ∈ dashedFrom before cs, IsPlain d := by
  induction cs generalizing before with
  | nil => exact List.forall_mem_nil _
  | cons c rest ih =>
    rw [dashedFrom_cons, List.forall_mem_append, List.forall_mem_cons]
    refine ⟨?_, isPlain_dashedChar c, ih (some c)⟩
    obtain h | ⟨h, -⟩ := divider_eq_or before c rest.head?
    · rw [h]
      exact List.forall_mem_nil _
    · rw [h, List.forall_mem_singleton]
      exact ⟨by decide, by decide⟩

/-- What is in lower case is written as it is. -/
theorem dashedFrom_of_isPlain (before : Option Char) (h : ∀ c ∈ cs, IsPlain c) :
    dashedFrom before cs = cs := by
  induction cs generalizing before with
  | nil => rfl
  | cons c rest ih =>
    rw [List.forall_mem_cons] at h
    have hdivider : divider before c rest.head? = [] := by
      rw [divider, h.1.1, Bool.false_and]
      rfl
    rw [dashedFrom_cons, hdivider, dashedChar_of_isPlain h.1, ih (some c) h.2, List.nil_append]

/-- Besides dashes, what is written are the characters made small, in order. -/
theorem filter_dashedFrom (before : Option Char) (cs : List Char) :
    (dashedFrom before cs).filter (· ≠ '-')
      = (cs.map Char.toLower).filter (fun c => ¬ IsDash c) := by
  induction cs generalizing before with
  | nil => rfl
  | cons c rest ih =>
    have hdivider : (divider before c rest.head?).filter (· ≠ '-') = [] := by
      obtain h | ⟨h, -⟩ := divider_eq_or before c rest.head? <;> rw [h] <;> rfl
    have hsmall : IsDash c.toLower ↔ IsDash c :=
      or_congr (toLower_eq_iff (by decide)) (toLower_eq_iff (by decide))
    rw [dashedFrom_cons, List.filter_append, hdivider, List.nil_append, List.map_cons]
    by_cases hdash : IsDash c
    · rw [List.filter_cons_of_neg (by simpa [dashedChar_eq_dash_iff] using hdash),
        List.filter_cons_of_neg (by simpa [hsmall] using hdash), ih]
    · have hchar : dashedChar c = c.toLower := if_neg fun h => hdash (.inr h)
      rw [List.filter_cons_of_pos (by simpa [dashedChar_eq_dash_iff] using hdash),
        List.filter_cons_of_pos (by simpa [hsmall] using hdash), ih, hchar]

/-- Where no letter or digit stands in front, a dash is first only for a dash of the name. -/
theorem head?_dashedFrom (h : ∀ b ∈ before, IsDash b) :
    (dashedFrom before cs).head? = some '-' ↔ ∃ c ∈ cs.head?, IsDash c := by
  cases cs with
  | nil => simp [dashedFrom]
  | cons c rest =>
    rw [dashedFrom_cons, divider_of_isDash h]
    simp [dashedChar_eq_dash_iff]

/-- Two characters are side by side at the front of a text, or further on. -/
theorem pair_infix_cons {a b : Char} :
    [a, b] <:+: c :: cs ↔ (a = c ∧ cs.head? = some b) ∨ [a, b] <:+: cs := by
  rw [List.infix_cons_iff, List.cons_prefix_cons, List.singleton_prefix_iff_head?_eq_some]

/-- **Dashes side by side** come from the name. -/
theorem infix_dashedFrom (before : Option Char) (cs : List Char) :
    ['-', '-'] <:+: dashedFrom before cs ↔ ∃ a b, IsDash a ∧ IsDash b ∧ [a, b] <:+: cs := by
  induction cs generalizing before with
  | nil => simp [dashedFrom]
  | cons c rest ih =>
    -- the character written for `c` and what comes next: no dash is put in behind a dash
    have hnext : ['-', '-'] <:+: dashedChar c :: dashedFrom (some c) rest
        ↔ (IsDash c ∧ ∃ d ∈ rest.head?, IsDash d)
          ∨ ∃ a b, IsDash a ∧ IsDash b ∧ [a, b] <:+: rest := by
      rw [pair_infix_cons, ih, eq_comm, dashedChar_eq_dash_iff]
      refine or_congr (and_congr_right fun hc => ?_) Iff.rfl
      exact head?_dashedFrom (by simpa using hc)
    -- the dash in front of it, if there is one: no dash is put in in front of a dash
    have hhere : ['-', '-'] <:+: dashedFrom before (c :: rest)
        ↔ ['-', '-'] <:+: dashedChar c :: dashedFrom (some c) rest := by
      rw [dashedFrom_cons]
      obtain h | ⟨h, hc⟩ := divider_eq_or before c rest.head?
      · rw [h, List.nil_append]
      · rw [h, List.singleton_append, pair_infix_cons, List.head?_cons, Option.some.injEq,
          dashedChar_eq_dash_iff]
        simp [hc]
    rw [hhere, hnext]
    simp only [pair_infix_cons]
    constructor
    · rintro (⟨hc, d, hd, hdash⟩ | ⟨a, b, ha, hb, h⟩)
      · exact ⟨c, d, hc, hdash, .inl ⟨rfl, hd⟩⟩
      · exact ⟨a, b, ha, hb, .inr h⟩
    · rintro ⟨a, b, ha, hb, ⟨rfl, hd⟩ | h⟩
      · exact .inl ⟨ha, b, hd, hb⟩
      · exact .inr ⟨a, b, ha, hb, h⟩

/-! ## Names -/

/-- **What a dashed name keeps of the name.** It is in lower case, and being so it is its own
dashed name. Besides dashes it has the characters of the name in lower case, in order. It starts
with a dash, or has two side by side, exactly if the name has dashes or underscores there. -/
theorem dashed_keeps (name : String) :
    (∀ c ∈ (dashed name).toList, c.isUpper = false ∧ c ≠ '_')
    ∧ dashed (dashed name) = dashed name
    ∧ (dashed name).toList.filter (· ≠ '-')
        = (name.toList.map Char.toLower).filter (fun c => ¬ IsDash c)
    ∧ ((dashed name).toList.head? = some '-' ↔ ∃ c ∈ name.toList.head?, IsDash c)
    ∧ (['-', '-'] <:+: (dashed name).toList
        ↔ ∃ a b, IsDash a ∧ IsDash b ∧ [a, b] <:+: name.toList) := by
  have htext : (dashed name).toList = dashedFrom none name.toList := String.toList_ofList
  have hplain : ∀ c ∈ (dashed name).toList, IsPlain c := by
    rw [htext]
    exact isPlain_dashedFrom none name.toList
  refine ⟨hplain, ?_, ?_, ?_, ?_⟩
  · rw [dashed, dashedFrom_of_isPlain none hplain, String.ofList_toList]
  · rw [htext, filter_dashedFrom]
  · rw [htext]
    exact head?_dashedFrom (by simp)
  · rw [htext, infix_dashedFrom]

example : dashed "HTTP_2Broker--v2X" = "http-2-broker--v2-x" := by
  decide

end IntentContract
