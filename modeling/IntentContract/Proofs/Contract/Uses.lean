import IntentContract.Proofs.Contract.WellFormed
import IntentContract.Proofs.TypeDescriptor.Items

/-!
# The names that a contract uses

A name is **used** by a contract if it stands at a leaf of a type in some signature, however deep,
and the target has neither the name itself nor another name for it. `Uses` says so, and the custom
types, which are collected by going through all signatures, are just the names that are used
(`mem_customTypes_iff_uses`).
-/

namespace IntentContract

namespace TypeDescriptor

variable {n : String}

/-- **A name that stands at a leaf of a type**, at any depth. -/
inductive HasLeaf (n : String) : TypeDescriptor → Prop
  | primitive : HasLeaf n (.primitive n)
  | union {members : List TypeDescriptor} {d : TypeDescriptor} (hmem : d ∈ members)
      (hleaf : HasLeaf n d) : HasLeaf n (.union members)
  | generic {kind : String} {args : List TypeDescriptor} {d : TypeDescriptor} (hmem : d ∈ args)
      (hleaf : HasLeaf n d) : HasLeaf n (.generic kind args)
  | nullable {inner : TypeDescriptor} (hleaf : HasLeaf n inner) : HasLeaf n (.nullable inner)

mutual

theorem hasLeaf_of_mem_leaves {d : TypeDescriptor} (h : n ∈ d.leaves) : d.HasLeaf n := by
  cases d with
  | primitive name =>
    rw [leaves, List.mem_singleton] at h
    exact h ▸ .primitive
  | union members =>
    rw [leaves] at h
    obtain ⟨d, hmem, hleaf⟩ := exists_hasLeaf_of_mem_leavesOf h
    exact .union hmem hleaf
  | generic kind args =>
    rw [leaves] at h
    obtain ⟨d, hmem, hleaf⟩ := exists_hasLeaf_of_mem_leavesOf h
    exact .generic hmem hleaf
  | nullable inner =>
    rw [leaves] at h
    exact .nullable (hasLeaf_of_mem_leaves h)
  | unknown => exact absurd h List.not_mem_nil

theorem exists_hasLeaf_of_mem_leavesOf {ds : List TypeDescriptor} (h : n ∈ leavesOf ds) :
    ∃ d ∈ ds, d.HasLeaf n := by
  cases ds with
  | nil => exact absurd h List.not_mem_nil
  | cons d ds =>
    rw [leavesOf, List.mem_append] at h
    rcases h with h | h
    · exact ⟨d, List.mem_cons_self, hasLeaf_of_mem_leaves h⟩
    · obtain ⟨e, he, hleaf⟩ := exists_hasLeaf_of_mem_leavesOf h
      exact ⟨e, List.mem_cons_of_mem d he, hleaf⟩

end

theorem mem_leavesOf_of_mem {ds : List TypeDescriptor} {d : TypeDescriptor} (hmem : d ∈ ds)
    (hleaf : n ∈ d.leaves) : n ∈ leavesOf ds := by
  induction ds with
  | nil => exact absurd hmem List.not_mem_nil
  | cons e ds ih =>
    rw [leavesOf, List.mem_append]
    rcases List.mem_cons.mp hmem with rfl | hmem
    · exact .inl hleaf
    · exact .inr (ih hmem)

/-- **The traversal finds the names at the leaves.** -/
theorem mem_leaves_iff {d : TypeDescriptor} : n ∈ d.leaves ↔ d.HasLeaf n := by
  refine ⟨hasLeaf_of_mem_leaves, fun h => ?_⟩
  induction h with
  | primitive => exact List.mem_singleton_self n
  | union hmem _ ih => exact mem_leavesOf_of_mem hmem ih
  | generic hmem _ ih => exact mem_leavesOf_of_mem hmem ih
  | nullable _ ih => exact ih

theorem isCustomName_iff :
    isCustomName n = true ↔ targetName? n = none ∧ n ∉ builtinNames := by
  simp [isCustomName]

end TypeDescriptor

namespace Contract

variable {c : Contract} {n : String}

/-- **A name that a contract uses**: it stands at a leaf of some parameter's or some result's type,
and the target has it neither itself nor under another name. -/
def Uses (c : Contract) (n : String) : Prop :=
  (∃ op ∈ c.operations, (∃ p ∈ op.parameters, p.type.HasLeaf n)
      ∨ ∃ d, op.returns = some d ∧ d.HasLeaf n)
    ∧ TypeDescriptor.targetName? n = none ∧ n ∉ TypeDescriptor.builtinNames

/-- **The custom types are the names that are used.** -/
theorem mem_customTypes_iff_uses : n ∈ c.customTypes ↔ c.Uses n := by
  have hleaf : ∀ {d : TypeDescriptor},
      n ∈ d.customLeaves ↔ d.HasLeaf n ∧ TypeDescriptor.isCustomName n = true := fun {d} => by
    rw [TypeDescriptor.customLeaves, List.mem_filter, TypeDescriptor.mem_leaves_iff]
  have hoperation : ∀ op : ContractOperation, n ∈ op.customLeaves
      ↔ ((∃ p ∈ op.parameters, p.type.HasLeaf n) ∨ ∃ d, op.returns = some d ∧ d.HasLeaf n)
        ∧ TypeDescriptor.isCustomName n = true := fun op => by
    rw [ContractOperation.customLeaves, List.mem_append, List.mem_flatMap]
    cases op.returns <;> simp [hleaf, ← and_assoc, ← or_and_right]
  rw [customTypes, NameSet.mem_ofList, List.mem_flatMap, Uses, ← TypeDescriptor.isCustomName_iff]
  simp only [hoperation, ← and_assoc, exists_and_right]

instance : Decidable (c.Uses n) :=
  decidable_of_iff _ mem_customTypes_iff_uses

theorem mem_referencedTypes_iff : n ∈ c.referencedTypes ↔ c.Uses n ∧ n ≠ c.name := by
  rw [referencedTypes, List.mem_filter, mem_customTypes_iff_uses, bne_iff_ne]

theorem referencesSelf_iff : c.referencesSelf = true ↔ c.Uses c.name := by
  rw [referencesSelf, List.contains_iff_mem, mem_customTypes_iff_uses]

/-- A name that a well-formed contract uses is a word. -/
theorem WellFormed.isWord_of_mem_customTypes (h : c.WellFormed) (hn : n ∈ c.customTypes) :
    isWord n = true := by
  obtain ⟨⟨op, hop, hleaf⟩, htarget⟩ := mem_customTypes_iff_uses.mp hn
  obtain ⟨result, hresult, hwf⟩ := (h.operations op hop).returns
  have hword : ∀ {d : TypeDescriptor}, d.WellFormed .parsed → d.HasLeaf n → isWord n = true :=
    fun hd hleaf => TypeDescriptor.isWord_of_isCustomName
      (hd.typeName_of_mem_leaves n (TypeDescriptor.mem_leaves_iff.mpr hleaf))
      (TypeDescriptor.isCustomName_iff.mpr htarget)
  rcases hleaf with ⟨p, hp, hleaf⟩ | ⟨d, hd, hleaf⟩
  · exact hword ((h.operations op hop).parameters p hp).type hleaf
  · rw [hresult, Option.some.injEq] at hd
    exact hword (hd ▸ hwf) hleaf

theorem WellFormed.isWord_of_mem_referencedTypes (h : c.WellFormed) :
    ∀ n ∈ c.referencedTypes, isWord n = true := fun _ hn =>
  h.isWord_of_mem_customTypes (List.mem_filter.mp hn).1

end Contract

end IntentContract
