import IntentContract.Proofs.Json.Literal
import IntentContract.Text.Join

/-!
# Brackets in a text

Round, square and curly brackets are **nested** in a text if every closing one fits the last that
was opened and none is left open at the end. Brackets inside of string literals do not count:
scanning skips a literal whole, as JSON reads it.

A text is put together from pieces, and each is judged by itself: a piece takes the closing
brackets `a` that are awaited in front of it to the brackets `b` that are awaited behind it,
whatever else is open around it and whatever comes next (`Passes`). Pieces with matching ends can
be put one behind the other, and a piece that leaves everything as it is can be put anywhere.
-/

namespace IntentContract

/-- Reading a literal takes at least its closing quote. -/
theorem Json.length_lt_of_stringBody? {cs rest : List Char} {body : Option (List Char)}
    (h : stringBody? cs = some (body, rest)) : rest.length < cs.length := by
  fun_induction stringBody? cs generalizing body rest with
  | case1 => cases h
  | case2 rest' =>
    obtain ⟨-, rfl⟩ := Prod.mk.inj (Option.some.inj h)
    exact Nat.lt_succ_self _
  | case3 => cases h
  | case4 rest' c after hescape hlt ih =>
    obtain ⟨⟨body', _⟩, hbody, hpair⟩ := Option.map_eq_some_iff.mp h
    obtain ⟨-, rfl⟩ := Prod.mk.inj hpair
    have := ih hbody
    simp only [List.length_cons]
    omega
  | case5 => cases h
  | case6 c rest' _ _ _ ih =>
    obtain ⟨⟨body', _⟩, hbody, hpair⟩ := Option.map_eq_some_iff.mp h
    obtain ⟨-, rfl⟩ := Prod.mk.inj hpair
    exact Nat.lt_succ_of_lt (ih hbody)

namespace Brackets

/-! ## Scanning -/

/-- The bracket that closes an opening one. -/
def closer? (c : Char) : Option Char :=
  if c = '(' then some ')'
  else if c = '[' then some ']'
  else if c = '\x7b' then some '\x7d'
  else none

/-- A closing bracket. -/
def isCloser (c : Char) : Bool :=
  c = ')' || c = ']' || c = '\x7d'

/-- **A character outside of literals**: what it does to the closing brackets that are awaited, of
which the innermost stands first. -/
def step (awaited : List Char) (c : Char) : Option (List Char) :=
  match closer? c with
  | some closer => some (closer :: awaited)
  | none =>
    if isCloser c then
      match awaited with
      | [] => none
      | next :: outer => if next = c then some outer else none
    else some awaited

/-- **Scans a text**: the closing brackets that are awaited at its end. There are none if a bracket
does not fit, or if what a quote begins is no JSON literal. -/
def scan (awaited cs : List Char) : Option (List Char) :=
  match cs with
  | [] => some awaited
  | c :: rest =>
    if c = '"' then
      match h : Json.stringBody? rest with
      | some (some _, behind) =>
        have := Json.length_lt_of_stringBody? h
        scan awaited behind
      | _ => none
    else
      match step awaited c with
      | some awaited => scan awaited rest
      | none => none
termination_by cs.length

/-- A bracket in a literal closes none outside of it. -/
example : scan [] "(\")\"".toList = some [')'] := by decide +kernel

/-- **A text with nested brackets**, none of them left open. -/
def Nested (text : String) : Prop :=
  scan [] text.toList = some []

theorem scan_cons {c : Char} (hc : c ≠ '"') (awaited rest : List Char) :
    scan awaited (c :: rest) = (step awaited c).bind (scan · rest) := by
  rw [scan, if_neg hc]
  cases step awaited c <;> rfl

/-- A literal is skipped. -/
theorem scan_literal (awaited : List Char) (s : String) (rest : List Char) :
    scan awaited ((Json.literal s).toList ++ rest) = scan awaited rest := by
  have hbody := Json.stringBody?_escape s.toList rest
  rw [Json.toList_literal, List.cons_append, List.append_assoc, List.singleton_append, scan,
    if_pos rfl]
  split
  · next body behind hsome =>
    obtain ⟨-, rfl⟩ := Prod.mk.inj (Option.some.inj (hbody.symm.trans hsome))
    rfl
  · next hnone => exact absurd hbody (hnone _ _)

/-! ## Pieces of a text -/

/-- **A piece of a text takes the awaited brackets `a` to `b`**, whatever is open around it and
whatever comes next. -/
def Passes (s : String) (a b : List Char) : Prop :=
  ∀ outer rest, scan (a ++ outer) (s.toList ++ rest) = scan (b ++ outer) rest

/-- A text without quotes, read character by character. -/
def steps : List Char → List Char → Option (List Char)
  | awaited, [] => some awaited
  | awaited, c :: cs => if c = '"' then none else (step awaited c).bind (steps · cs)

section Passes

variable {s t : String} {a b c cs : List Char}

theorem step_append {x : Char} (h : step a x = some b) (outer : List Char) :
    step (a ++ outer) x = some (b ++ outer) := by
  unfold step at h ⊢
  cases hcloser : closer? x with
  | some closer =>
    rw [hcloser] at h
    obtain rfl := Option.some.inj h
    rfl
  | none =>
    rw [hcloser] at h
    by_cases hx : isCloser x = true
    · simp only [hx, if_true] at h ⊢
      cases a with
      | nil => cases h
      | cons next a =>
        simp only [List.cons_append] at h ⊢
        split at h
        · next heq => rw [if_pos heq, Option.some.inj h]
        · cases h
    · simp only [hx, Bool.false_eq_true, if_false, Option.some.injEq] at h ⊢
      rw [h]

theorem scan_of_steps (h : steps a cs = some b) (outer rest : List Char) :
    scan (a ++ outer) (cs ++ rest) = scan (b ++ outer) rest := by
  induction cs generalizing a with
  | nil =>
    obtain rfl := Option.some.inj h
    rfl
  | cons x cs ih =>
    rw [steps] at h
    split at h
    · cases h
    · next hx =>
      obtain ⟨mid, hstep, hmid⟩ := Option.bind_eq_some_iff.mp h
      rw [List.cons_append, scan_cons hx, step_append hstep, Option.bind_some, ih hmid]

/-- **A text that is written out** is scanned from its characters. -/
theorem passes_ofList (h : steps a cs = some b) : Passes (String.ofList cs) a b := by
  intro outer rest
  rw [String.toList_ofList, scan_of_steps h]

/-- **Pieces with matching ends** make one piece. -/
theorem Passes.append (hs : Passes s a b) (ht : Passes t b c) : Passes (s ++ t) a c := by
  intro outer rest
  rw [String.toList_append, List.append_assoc, hs, ht]

/-- A piece goes on with a text that is written out. -/
theorem Passes.text (hs : Passes s a b) (h : steps b cs = some c) :
    Passes (s ++ String.ofList cs) a c :=
  hs.append (passes_ofList h)

/-- What leaves nothing open and closes nothing can stand anywhere. -/
theorem Passes.anywhere (h : Passes s [] []) (a : List Char) : Passes s a a := by
  intro outer rest
  exact h (a ++ outer) rest

/-- A piece goes on with one that leaves nothing open and closes nothing. -/
theorem Passes.level (hs : Passes s a b) (ht : Passes t [] []) : Passes (s ++ t) a b :=
  hs.append (ht.anywhere b)

theorem passes_literal (s : String) : Passes (Json.literal s) [] [] := by
  intro outer rest
  exact scan_literal outer s rest

/-- The brackets and the quote. -/
def marks : List Char :=
  ['(', ')', '[', ']', '\x7b', '\x7d', '"']

theorem step_of_not_mem_marks {x : Char} (h : x ∉ marks) (a : List Char) :
    step a x = some a := by
  simp only [marks, List.mem_cons, List.not_mem_nil, or_false, not_or] at h
  simp [step, closer?, isCloser, h]

theorem steps_of_forall_not_mem_marks (h : ∀ x ∈ cs, x ∉ marks) : steps a cs = some a := by
  induction cs with
  | nil => rfl
  | cons x cs ih =>
    rw [List.forall_mem_cons] at h
    have hquote : x ≠ '"' := by
      rintro rfl
      exact h.1 (by decide)
    rw [steps, if_neg hquote, step_of_not_mem_marks h.1, Option.bind_some, ih h.2]

/-- **A text of a class of characters** without brackets and quotes leaves everything as it is. -/
theorem passes_of_forall {p : Char → Bool} (hp : marks.any p = false)
    (h : ∀ x ∈ s.toList, p x = true) : Passes s [] [] := by
  have hnot : ∀ x ∈ s.toList, x ∉ marks := by
    intro x hx hmark
    have hfalse := List.any_eq_false.mp hp x hmark
    exact hfalse (h x hx)
  have hpass := passes_ofList (steps_of_forall_not_mem_marks (a := []) hnot)
  rwa [String.ofList_toList] at hpass

theorem passes_join {separator : String} (hsep : Passes separator [] []) {ss : List String}
    (h : ∀ s ∈ ss, Passes s [] []) : Passes (Text.join separator ss) [] [] := by
  fun_induction Text.join separator ss with
  | case1 => exact passes_ofList rfl
  | case2 s => exact h s List.mem_cons_self
  | case3 s rest _ ih =>
    rw [List.forall_mem_cons] at h
    exact (h.1.append hsep).append (ih h.2)

/-- A piece that is a text of its own has nested brackets. -/
theorem Passes.nested (h : Passes s [] []) : Nested s := by
  have hscan := h [] []
  rw [List.append_nil, List.append_nil] at hscan
  rw [Nested, hscan, scan]

end Passes

end Brackets

end IntentContract
