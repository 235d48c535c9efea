import IntentContract.LinkedData.Graph
import IntentContract.Proofs.Contract.Surface
import IntentContract.Proofs.Keyed
import IntentContract.Proofs.LinkedData.Alignment

/-!
# What the context of a graph binds

The context of a graph is one map for two purposes. The prefixes of the table are put into it, and
then the terms of the vocabulary, over whatever stands there under the same names. A table may bind
any name, so a prefix may be lost to a term: it keeps its namespace exactly if no term of the
vocabulary has its name, or the term says just that namespace (`context_binds`). The usual table
itself loses one, `proof`.
-/

namespace IntentContract

namespace Keyed

variable {β γ : Type} {key : String} {v : β} {m : List (String × β)}

/-- Where every key stands once, what is found is what stands there. -/
theorem get?_eq_some_iff (h : (m.map Prod.fst).Nodup) : get? key m = some v ↔ (key, v) ∈ m := by
  refine ⟨mem_of_get?, fun hmem => ?_⟩
  induction m with
  | nil => cases hmem
  | cons e m ih =>
    rw [List.map_cons, List.nodup_cons] at h
    rw [get?]
    rcases List.mem_cons.mp hmem with rfl | hmem
    · exact if_pos rfl
    · have hne : e.1 ≠ key := fun he => h.1 (he ▸ List.mem_map_of_mem hmem)
      rw [if_neg hne, ih h.2 hmem]

/-- Where every key stands once, the order does not matter. -/
theorem get?_reverse (h : (m.map Prod.fst).Nodup) : get? key m.reverse = get? key m := by
  have hreverse : (m.reverse.map Prod.fst).Nodup := by
    rw [List.map_reverse]
    exact List.nodup_reverse.mpr h
  refine Option.ext fun v => ?_
  rw [get?_eq_some_iff h, get?_eq_some_iff hreverse, List.mem_reverse]

theorem nodup_map (f : β → γ) (h : (m.map Prod.fst).Nodup) :
    ((m.map fun (k, v) => (k, f v)).map Prod.fst).Nodup := by
  rw [List.map_map]
  exact h

theorem get?_map (f : β → γ) (key : String) (m : List (String × β)) :
    get? key (m.map fun (k, v) => (k, f v)) = (get? key m).map f := by
  induction m with
  | nil => rfl
  | cons e m ih =>
    rw [List.map_cons, get?, get?, ih]
    split <;> rfl

/-- **The keys are in order**, and so each stands once. -/
def Sorted (m : List (String × β)) : Prop :=
  (m.map Prod.fst).Pairwise (· < ·)

theorem Sorted.nodup (h : Sorted m) : (m.map Prod.fst).Nodup := by
  refine List.Pairwise.imp (fun {k k'} hlt heq => ?_) h
  rw [heq] at hlt
  exact String.lt_irrefl k' hlt

/-- The keys of a map are a set of names. -/
theorem keys_insert (key : String) (v : β) (m : List (String × β)) :
    (insert key v m).map Prod.fst = NameSet.insert key (m.map Prod.fst) := by
  induction m with
  | nil => rfl
  | cons e m ih =>
    obtain ⟨k, w⟩ := e
    rw [insert, List.map_cons, NameSet.insert]
    split
    · next hk => rw [hk]; rfl
    · split
      · rfl
      · rw [List.map_cons, ih]

theorem Sorted.insert (h : Sorted m) (key : String) (v : β) : Sorted (insert key v m) := by
  rw [Sorted, keys_insert]
  exact NameSet.pairwise_insert h

theorem sorted_ofList (entries : List (String × β)) : Sorted (ofList entries) :=
  List.foldlRecOn entries _ List.Pairwise.nil fun _ h e _ => Sorted.insert h e.1 e.2

end Keyed

/-- **A table binds each prefix once**, and still does so when it is completed. -/
theorem PrefixTable.sorted_completed (bindings : List (String × String)) :
    Keyed.Sorted (ofBindings bindings).completed.entries := by
  have hstep : ∀ (t : PrefixTable) (b : String × String), Keyed.Sorted t.entries →
      Keyed.Sorted (if (t.get? b.1).isNone then t.insert b.1 b.2 else t).entries := by
    intro t b ht
    split
    · exact ht.insert b.1 b.2
    · exact ht
  exact List.foldlRecOn (motive := fun t : PrefixTable => Keyed.Sorted t.entries) coreBindings _
    (Keyed.sorted_ofList bindings) fun t ht b _ => hstep t b ht

namespace LinkedData

/-- **The context of a graph, name by name**: a term of the vocabulary before a prefix. -/
theorem get?_contextTerms {t : PrefixTable} (h : Keyed.Sorted t.entries) (name : String) :
    (contextTerms t).get? name
      = (Keyed.get? name vocabularyTerms).or ((t.get? name).map .str) := by
  have hvocabulary : (vocabularyTerms.map Prod.fst).Nodup := by decide
  rw [contextTerms, Json.get?, Keyed.get?_insertAll, Keyed.get?_reverse hvocabulary, Keyed.ofList,
    Keyed.get?_insertAll, Keyed.get?_reverse (Keyed.nodup_map Json.str h.nodup),
    Keyed.get?_map]
  simp [Keyed.get?, PrefixTable.get?]

/-- **What the context of a graph binds**, for any table and any contract. All terms of the
vocabulary are bound, and besides them prefixes of the completed table to their namespaces and
nothing else. A prefix of the table is among them if no term has its name, and only then – unless
the term is bound to the very namespace. -/
theorem context_binds (bindings : List (String × String)) (c : Contract) :
    let t := (PrefixTable.ofBindings bindings).completed
    ∃ terms : Json,
      (graph (.ofBindings bindings) c).get? "@context"
          = some (.arr ((c.context.map Json.str).toList ++ [terms]))
      ∧ (∀ name v, (name, v) ∈ vocabularyTerms → terms.get? name = some v)
      ∧ (∀ name v, terms.get? name = some v →
          (name, v) ∈ vocabularyTerms ∨ ∃ iri, t.get? name = some iri ∧ v = .str iri)
      ∧ ∀ name iri, t.get? name = some iri →
          (terms.get? name = some (.str iri)
            ↔ ∀ v, (name, v) ∈ vocabularyTerms → v = .str iri) := by
  intro t
  have hterms := get?_contextTerms (PrefixTable.sorted_completed bindings)
  have hvocabulary : ∀ {name v}, Keyed.get? name vocabularyTerms = some v
      ↔ (name, v) ∈ vocabularyTerms := Keyed.get?_eq_some_iff (by decide)
  refine ⟨contextTerms t, rfl, fun name v hv => ?_, fun name v hv => ?_, fun name iri hiri => ?_⟩
  · rw [hterms, hvocabulary.mpr hv]
    rfl
  · rw [hterms] at hv
    cases hname : Keyed.get? name vocabularyTerms with
    | some w =>
      rw [hname] at hv
      exact .inl (hvocabulary.mp (hname.trans hv))
    | none =>
      rw [hname, Option.none_or, Option.map_eq_some_iff] at hv
      obtain ⟨iri, hiri, rfl⟩ := hv
      exact .inr ⟨iri, hiri, rfl⟩
  · rw [hterms, hiri]
    simp only [← hvocabulary]
    cases Keyed.get? name vocabularyTerms with
    | some w => simp
    | none => simp

/-- **The usual table loses a prefix**: `proof` is the name of a term as well. -/
theorem context_loses_proof :
    PrefixTable.usual.completed.get? "proof" = some "https://agentidl.dev/ns/proof#"
      ∧ ∃ terms : Json, (graph .usual (.empty "I")).get? "@context" = some (.arr [terms])
        ∧ terms.get? "proof" = some (.str "agent:proof")
        ∧ terms.get? "proof" ≠ some (.str "https://agentidl.dev/ns/proof#") := by
  have hproof : (contextTerms PrefixTable.usual.completed).get? "proof"
      = some (.str "agent:proof") :=
    get?_contextTerms (PrefixTable.sorted_completed _) "proof"
  refine ⟨by decide, _, rfl, hproof, ?_⟩
  rw [hproof]
  simp

end LinkedData

end IntentContract
