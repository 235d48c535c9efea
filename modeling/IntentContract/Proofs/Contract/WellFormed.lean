import IntentContract.Proofs.Contract.Redeclared
import IntentContract.Proofs.Grammar.Image

/-!
# Contracts from documents

What a document can say, its contract keeps: the names are words, the types are well-formed and
every operation has a result. Building the contract adds that no two operations share a name,
since a later declaration takes the place of an earlier one.
-/

namespace IntentContract

/-- A parameter with a word as its name and a well-formed type. -/
structure Parameter.WellFormed (p : Parameter) : Prop where
  name : isWord p.name = true
  type : p.type.WellFormed .parsed

/-- An operation as a document declares it. -/
structure ContractOperation.WellFormed (op : ContractOperation) : Prop where
  name : isWord op.name = true
  parameters : ∀ p ∈ op.parameters, p.WellFormed
  returns : ∃ d, op.returns = some d ∧ d.WellFormed .parsed

/-- **A contract as it comes from a document**: its operations are well-formed, and no two of
them share a name. -/
structure Contract.WellFormed (c : Contract) : Prop where
  name : isWord c.name = true
  operations : ∀ op ∈ c.operations, op.WellFormed
  nodup : (c.operations.map (·.name)).Nodup

/-- A declaration with a name becomes a well-formed operation. -/
theorem ContractOperation.wellFormed_ofDeclaration {op : Operation} (h : op.WellFormed .parsed)
    (hname : op.name ≠ "") : (ofDeclaration op).WellFormed where
  name := h.name.resolve_left hname
  parameters := List.forall_mem_map.mpr fun a ha =>
    ⟨(h.arguments a ha).name, (h.arguments a ha).type⟩
  returns := h.returns

namespace Contract

/-! ## Inserting operations -/

/-- One more declaration keeps a contract well-formed. -/
theorem WellFormed.insert {c : Contract} (h : c.WellFormed) {op : ContractOperation}
    (hop : op.WellFormed) : (c.insert op).WellFormed where
  name := h.name
  operations o ho := by
    rcases mem_operations_insert ho with rfl | ho
    · exact hop
    · exact h.operations o ho
  nodup := (inOrderOfFirst_insertAll h.nodup [op]).nodup

/-- Any number of declarations keep a contract well-formed. -/
theorem WellFormed.foldl_insert {c : Contract} (h : c.WellFormed) {ops : List Operation}
    (hops : ∀ op ∈ ops, op.WellFormed .parsed ∧ op.name ≠ "") :
    (ops.foldl (fun c op => c.insert (.ofDeclaration op)) c).WellFormed := by
  induction ops generalizing c with
  | nil => exact h
  | cons op ops ih =>
    rw [List.forall_mem_cons] at hops
    exact ih (h.insert (ContractOperation.wellFormed_ofDeclaration hops.1.1 hops.1.2)) hops.2

/-! ## From a document -/

/-- The operations of a well-formed interface are well-formed. -/
theorem wellFormed_of_mem_operations {i : Interface} (h : i.WellFormed .parsed) {op : Operation}
    (hop : op ∈ i.operations) : op.WellFormed .parsed := by
  rw [Interface.operations, List.mem_filterMap] at hop
  obtain ⟨m, hm, hmop⟩ := hop
  cases m with
  | operation o =>
    obtain rfl := Option.some.inj hmop
    exact h.members _ hm
  | property p => cases hmop
  | other => cases hmop

theorem wellFormed_ofInterface {i : Interface} (h : i.WellFormed .parsed) :
    (ofInterface i).WellFormed := by
  have hstart : WellFormed ⟨i.name, (Extensions.ofAttributes i.attributes).context,
      (Extensions.ofAttributes i.attributes).semantic, []⟩ :=
    ⟨h.name, List.forall_mem_nil _, List.nodup_nil⟩
  refine hstart.foldl_insert fun op hop => ?_
  obtain ⟨hmem, hname⟩ := List.mem_filter.mp hop
  exact ⟨wellFormed_of_mem_operations h hmem, by simpa using hname⟩

/-- An interface of well-formed definitions is well-formed. -/
theorem wellFormed_of_mem_interfaces {ds : List Definition} (h : ∀ d ∈ ds, d.WellFormed .parsed)
    {i : Interface} (hi : i ∈ Definition.interfaces ds) : i.WellFormed .parsed := by
  exact h _ (Definition.mem_interfaces_iff.mp hi)

/-- **The contract of a source text is well-formed.** -/
theorem wellFormed_of_ofSource {source : String} {c : Contract} (h : ofSource source = .ok c) :
    c.WellFormed := by
  rw [ofSource] at h
  cases hparse : parse source with
  | error e => rw [hparse] at h; cases h
  | ok ds =>
    rw [hparse] at h
    cases hi : Definition.interfaces ds with
    | nil => simp only [build, hi] at h; cases h
    | cons i is =>
      simp only [build, hi] at h
      obtain rfl := Except.ok.inj h
      obtain ⟨ts, hrow, hts⟩ := exists_inRow_of_parse hparse
      exact wellFormed_ofInterface (wellFormed_of_mem_interfaces (hrow.wellFormed hts)
        (hi ▸ List.mem_cons_self))

end Contract

end IntentContract
