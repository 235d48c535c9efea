import IntentContract.Proofs.Conformance.Definitions
import IntentContract.Proofs.Contract.Redeclared

/-!
# Warnings and overwritten operations

Who declares a name again is warned of it by the check, and has the earlier operation replaced when
the contract is built. The two do not share a mechanism: the check keeps the names it has **seen**,
with the empty name among them, and the contract finds an operation to replace among those it
**has**, into which no empty name comes. They go through the same declarations side by side, and
as long as what was seen and what is there are the same names but for the empty one (`SeenIn`),
the next declaration is worth a warning just if it replaces an operation.
-/

namespace IntentContract.DefinitionRules

variable {rules : DefinitionRules} {seen : List String} {c : Contract}

/-! ## Side by side -/

/-- **The names that were seen are those of the contract**, the empty one aside. -/
def SeenIn (seen : List String) (c : Contract) : Prop :=
  ∀ n, n ≠ "" → (n ∈ seen ↔ n ∈ c.operationNames)

/-- A declaration without a name is seen, and does not come into the contract. -/
theorem SeenIn.anonymous (h : SeenIn seen c) : SeenIn ("" :: seen) c := by
  intro n hn
  rw [List.mem_cons, or_iff_right hn, h n hn]

/-- A declaration with a name is seen, and comes into the contract. -/
theorem SeenIn.insert (h : SeenIn seen c) (op : Operation) :
    SeenIn (op.name :: seen) (c.insert (.ofDeclaration op)) := by
  intro n hn
  rw [List.mem_cons, Contract.mem_operationNames_insert, h n hn]
  rfl

/-! ## Warnings -/

theorem checkDuplicate_of_anonymous {op : Operation} (h : op.name = "") (location : String) :
    checkDuplicate seen op location = [] := by
  simp [checkDuplicate, h]

/-- **One declaration**: there is a warning just if an operation is replaced. -/
theorem length_warnings_checkDuplicate (h : SeenIn seen c) {op : Operation} (hname : op.name ≠ "")
    (location : String) :
    (Report.mk (checkDuplicate seen op location)).warnings.length
      = if c.replaces op.name = true then 1 else 0 := by
  have htest : (op.name != "" && seen.contains op.name) = true ↔ c.replaces op.name = true := by
    rw [Contract.replaces_iff, ← h op.name hname]
    simp [hname]
  rw [checkDuplicate]
  by_cases hreplaces : c.replaces op.name = true
  · rw [if_pos (htest.mpr hreplaces), if_pos hreplaces]
    rfl
  · rw [if_neg (mt htest.mp hreplaces), if_neg hreplaces]
    rfl

theorem kind_of_mem_checkDuplicate {op : Operation} {location : String} {f : Finding}
    (hf : f ∈ checkDuplicate seen op location) : f.kind = .duplicateOperation := by
  rw [checkDuplicate] at hf
  split at hf
  · rw [List.mem_singleton.mp hf]
    rfl
  · cases hf

/-- The warnings about operations: one about the name of the first, if any, and those about the
others. -/
theorem warnings_checkOperations_cons (i : Interface) (seen : List String) (op : Operation)
    (ops : List Operation) :
    (Report.mk (rules.checkOperations i.name seen (op :: ops))).warnings
      = (Report.mk (checkDuplicate seen op (locationOf i.name op))).warnings
        ++ (Report.mk (rules.checkOperations i.name (op.name :: seen) ops)).warnings := by
  rw [checkOperations_cons, Report.warnings_append, Report.warnings_append, warnings_faultsOf,
    List.nil_append]

/-- Warnings are about names that are declared again, and about nothing else. -/
theorem kind_of_mem_warnings (i : Interface) (ops : List Operation) {f : Finding}
    (hf : f ∈ (Report.mk (rules.checkOperations i.name seen ops)).warnings) :
    f.kind = .duplicateOperation := by
  induction ops generalizing seen with
  | nil => cases hf
  | cons op ops ih =>
    rw [warnings_checkOperations_cons] at hf
    rcases List.mem_append.mp hf with hf | hf
    · exact kind_of_mem_checkDuplicate (List.mem_filter.mp hf).1
    · exact ih hf

/-- **Any number of declarations**: there are as many warnings as operations that are replaced. -/
theorem length_warnings_checkOperations (i : Interface) (ops : List Operation)
    (h : SeenIn seen c) :
    (Report.mk (rules.checkOperations i.name seen ops)).warnings.length
      = (c.reports ((ops.filter fun op => op.name != "").map .ofDeclaration)).count true := by
  induction ops generalizing seen c with
  | nil => rfl
  | cons op ops ih =>
    rw [warnings_checkOperations_cons, List.length_append]
    by_cases hname : op.name = ""
    · rw [checkDuplicate_of_anonymous hname, List.filter_cons_of_neg (by simp [hname]), hname,
        ih h.anonymous]
      exact Nat.zero_add _
    · rw [length_warnings_checkDuplicate h hname, List.filter_cons_of_pos (by simp [hname]),
        List.map_cons, Contract.reports, ih (h.insert op), List.count_cons, Nat.add_comm]
      simp [ContractOperation.ofDeclaration]

theorem warnings_checkInterface (i : Interface) :
    (Report.mk (rules.checkInterface i)).warnings
      = (Report.mk (rules.checkOperations i.name [] i.operations)).warnings := by
  rw [checkInterface_eq, Report.warnings_append, warnings_faultsOf, List.nil_append]

/-- **Every overwritten operation is warned of.** In a document with one interface all warnings
are about names that are declared again. Warnings and operations of the contract make up the
declarations with a name, and there are as many warnings as there were declarations that replaced
another when the contract was built. -/
theorem warnings_count_overwrites (rules : DefinitionRules) {before after : List Definition}
    {i : Interface} (hone : ∀ j, Definition.interface j ∉ before ++ after) :
    ∃ report c, rules.check (before ++ .interface i :: after) = .ok report
      ∧ Contract.build (before ++ .interface i :: after) = .ok c
      ∧ (∀ f ∈ report.warnings, f.kind = .duplicateOperation)
      ∧ report.warnings.length + c.operations.length = i.named.length
      ∧ c = Contract.insertAll { c with operations := [] } (i.named.map .ofDeclaration)
      ∧ report.warnings.length = (Contract.reports { c with operations := [] }
          (i.named.map .ofDeclaration)).count true := by
  have hinterfaces : Definition.interfaces (before ++ .interface i :: after) = [i] := by
    rw [Definition.interfaces_append_cons fun j hj => hone j (List.mem_append_left _ hj),
      Definition.interfaces_eq_nil_iff.mpr fun j hj => hone j (List.mem_append_right _ hj)]
  have hcontract := Contract.ofInterface_eq_insertAll i
  have hstart : SeenIn [] { Contract.ofInterface i with operations := [] } :=
    fun n _ => Iff.rfl
  have hcount : (Report.mk (rules.checkInterface i)).warnings.length
      = (Contract.reports { Contract.ofInterface i with operations := [] }
          (i.named.map .ofDeclaration)).count true := by
    rw [warnings_checkInterface]
    exact length_warnings_checkOperations i i.operations hstart
  refine ⟨⟨rules.checkInterface i⟩, Contract.ofInterface i, ?_, ?_, ?_, ?_, hcontract, hcount⟩
  · refine check_eq_ok_iff.mpr ⟨i, [], hinterfaces, ?_⟩
    rw [List.flatMap_singleton]
  · rw [Contract.build, hinterfaces]
  · rw [warnings_checkInterface]
    exact fun f hf => kind_of_mem_warnings i i.operations hf
  · have hlength := Contract.length_insertAll { Contract.ofInterface i with operations := [] }
      (i.named.map .ofDeclaration)
    rw [← hcontract, List.length_map] at hlength
    rw [hcount]
    exact hlength.trans (Nat.zero_add _)

/-- Three declarations of `f` and one of `g` make two operations and two warnings, and that two
operations have no name is worth none. -/
theorem warnings_count_overwrites_repeated :
    let declare (name : String) : Member := .operation ⟨name, none, [], []⟩
    let i : Interface := ⟨"I", none,
      [declare "f", declare "", declare "f", .other, declare "g", declare "", declare "f"], []⟩
    (∀ j, Definition.interface j ∉ [Definition.other] ++ [])
      ∧ ∃ report c, DefinitionRules.usual.check [.other, .interface i] = .ok report
        ∧ Contract.build [.other, .interface i] = .ok c
        ∧ (∀ f ∈ report.warnings, f.kind = .duplicateOperation)
        ∧ report.warnings.length + c.operations.length = i.named.length
        ∧ report.warnings.length = 2 ∧ c.operations.length = 2 := by
  intro declare i
  have hone : ∀ j, Definition.interface j ∉ [Definition.other] ++ [] := by simp
  obtain ⟨report, c, hcheck, hbuild, hkind, hlength, -, -⟩ :=
    warnings_count_overwrites DefinitionRules.usual (i := i) hone
  refine ⟨hone, report, c, hcheck, hbuild, hkind, hlength, ?_⟩
  obtain rfl := Except.ok.inj hcheck
  obtain rfl := Except.ok.inj hbuild
  exact ⟨by decide, by decide⟩

end IntentContract.DefinitionRules
