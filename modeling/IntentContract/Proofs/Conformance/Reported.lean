import IntentContract.Conformance.Finding

/-!
# Reports that are exact

Rules come down to **duties**, in the order in which a check goes through them. A duty is kept or
broken, and one that is broken is worth one finding. A report is exact if it has these findings
and no other, in this order.

Nothing is said here about what the duties are. The rules for documents and those for definitions
each have duties of their own, and each say what it takes to break one. What follows from exactness
is the same for both: no duty is broken just if nothing is found, and findings are the same where
the same duties are broken.
-/

namespace IntentContract

/-- **Findings that are exact**: the duties that are broken give one finding each, in the order of
the duties, and those that are kept give none. It is for `breach` to say what finding a broken duty
is worth. -/
inductive Reported {δ : Type} (breach : δ → Finding → Prop) : List δ → List Finding → Prop where
  | nil : Reported breach [] []
  | kept {d : δ} {ds : List δ} {fs : List Finding} (hkept : ∀ f, ¬ breach d f)
      (hrest : Reported breach ds fs) : Reported breach (d :: ds) fs
  | broken {d : δ} {f : Finding} {ds : List δ} {fs : List Finding} (hbroken : breach d f)
      (hrest : Reported breach ds fs) : Reported breach (d :: ds) (f :: fs)

namespace Reported

variable {α δ : Type} {breach : δ → Finding → Prop} {d : δ} {ds : List δ} {fs : List Finding}

/-! ## Putting reports together -/

theorem append {es : List δ} {gs : List Finding} (h : Reported breach ds fs)
    (h' : Reported breach es gs) : Reported breach (ds ++ es) (fs ++ gs) := by
  induction h with
  | nil => exact h'
  | kept hkept _ ih => exact .kept hkept ih
  | broken hbroken _ ih => exact .broken hbroken ih

/-- Where each of several things is reported exactly, so are all of them in a row. -/
theorem flatMap {xs : List α} {duties : α → List δ} {found : α → List Finding}
    (h : ∀ x ∈ xs, Reported breach (duties x) (found x)) :
    Reported breach (xs.flatMap duties) (xs.flatMap found) := by
  induction xs with
  | nil => exact .nil
  | cons x xs ih =>
    rw [List.forall_mem_cons] at h
    exact h.1.append (ih h.2)

/-- Nothing is found where every duty is kept. -/
theorem nil_of_kept (h : ∀ d ∈ ds, ∀ f, ¬ breach d f) : Reported breach ds [] := by
  induction ds with
  | nil => exact .nil
  | cons d ds ih =>
    rw [List.forall_mem_cons] at h
    exact .kept h.1 (ih h.2)

/-- A single duty with a test that says whether it is broken. -/
theorem single {p : Prop} [Decidable p] {f : Finding} (hbroken : p → breach d f)
    (hkept : ¬ p → ∀ f, ¬ breach d f) : Reported breach [d] (if p then [f] else []) := by
  split
  · next hp => exact .broken (hbroken hp) .nil
  · next hp => exact .kept (hkept hp) .nil

/-- One duty for each of several things. -/
theorem map {xs : List α} {duty : α → δ} {found : α → List Finding}
    (h : ∀ x ∈ xs, Reported breach [duty x] (found x)) :
    Reported breach (xs.map duty) (xs.flatMap found) := by
  rw [List.map_eq_flatMap]
  exact flatMap h

/-- One duty for each of several things, with a test that says which of them are broken. -/
theorem map_filter {xs : List α} {duty : α → δ} {fails : α → Bool} {fault : α → Finding}
    (hbroken : ∀ x, fails x = true → breach (duty x) (fault x))
    (hkept : ∀ x, fails x = false → ∀ f, ¬ breach (duty x) f) :
    Reported breach (xs.map duty) ((xs.filter fails).map fault) := by
  have hfound : (xs.filter fails).map fault
      = xs.flatMap fun x => if fails x = true then [fault x] else [] := by
    induction xs with
    | nil => rfl
    | cons x xs ih => cases hx : fails x <;> simp [hx, ih]
  rw [hfound]
  exact map fun x _ => single (hbroken x) fun hx => hkept x (Bool.eq_false_iff.mpr hx)

/-! ## What exactness gives -/

/-- Whatever is found comes from a duty that is broken. -/
theorem exists_breach (h : Reported breach ds fs) {f : Finding} (hf : f ∈ fs) :
    ∃ d ∈ ds, breach d f := by
  induction h with
  | nil => cases hf
  | kept _ _ ih =>
    obtain ⟨e, he, hbreach⟩ := ih hf
    exact ⟨e, List.mem_cons_of_mem _ he, hbreach⟩
  | broken hbroken _ ih =>
    rcases List.mem_cons.mp hf with rfl | hf
    · exact ⟨_, List.mem_cons_self, hbroken⟩
    · obtain ⟨e, he, hbreach⟩ := ih hf
      exact ⟨e, List.mem_cons_of_mem _ he, hbreach⟩

/-- Nothing is found just where every duty is kept. -/
theorem eq_nil_iff (h : Reported breach ds fs) : fs = [] ↔ ∀ d ∈ ds, ∀ f, ¬ breach d f := by
  induction h with
  | nil => simp
  | kept hkept _ ih => simp [ih, hkept]
  | @broken d f ds fs hbroken _ _ =>
    refine iff_of_false (List.cons_ne_nil f fs) fun hkept => ?_
    exact hkept d List.mem_cons_self f hbroken

/-- **Exact findings are determined by what is broken.** Two documents that break the same duties,
with the same findings, have the same report. -/
theorem unique {breach' : δ → Finding → Prop} {gs : List Finding} (h : Reported breach ds fs)
    (h' : Reported breach' ds gs) (hsame : ∀ d ∈ ds, ∀ f, breach d f ↔ breach' d f)
    (hone : ∀ d f g, breach d f → breach d g → f = g) : fs = gs := by
  induction h generalizing gs with
  | nil => cases h'; rfl
  | @kept d ds fs hkept _ ih =>
    rw [List.forall_mem_cons] at hsame
    cases h' with
    | kept _ hrest => exact ih hrest hsame.2
    | @broken _ g _ _ hbroken _ => exact absurd ((hsame.1 g).mpr hbroken) (hkept g)
  | @broken d f ds fs hbroken _ ih =>
    rw [List.forall_mem_cons] at hsame
    cases h' with
    | kept hkept _ => exact absurd ((hsame.1 f).mp hbroken) (hkept f)
    | @broken _ g _ _ hbroken' hrest =>
      rw [hone d f g hbroken ((hsame.1 g).mpr hbroken'), ih hrest hsame.2]

/-- **A report whose errors are exact is valid just where every duty is kept.** -/
theorem isValid_iff {report : Report} (h : Reported breach ds report.errors) :
    report.isValid = true ↔ ∀ d ∈ ds, ∀ f, ¬ breach d f := by
  rw [← h.eq_nil_iff]
  simp [Report.isValid, Report.errors]

end Reported

end IntentContract
