import IntentContract.LinkedData.Graph
import Mathlib.Data.List.Forall2

/-!
# The two views of a contract name the same resources

The graph writes an identifier in full, and the statements write it as a term: a compact
identifier as it is, and any other in angle brackets. Whether an identifier is compact is
decided twice and in different ways. Expansion looks at the first colon, at what follows it
and at the table, and a term is also kept back if the identifier starts with a scheme.

The two agree, because a scheme has no colon in it: an identifier that starts with one has its
first colon right in front of `//`, where expansion finds nothing compact either. So a term
stands for what expansion gives, whatever the identifier (`term_eq_or`), and the class and the
operations of a contract are the same resources in both views.
-/

namespace IntentContract

/-- What is found under a key is an entry. -/
theorem Keyed.mem_of_get? {β : Type} {key : String} {v : β} {m : List (String × β)}
    (h : Keyed.get? key m = some v) : (key, v) ∈ m := by
  induction m with
  | nil => cases h
  | cons e rest ih =>
    obtain ⟨k, w⟩ := e
    rw [Keyed.get?] at h
    split at h
    · next hk =>
      obtain rfl := Option.some.inj h
      rw [hk]
      exact List.mem_cons_self
    · exact List.mem_cons_of_mem _ (ih h)

namespace PrefixTable

/-- The text in front of the first colon, and the text behind it. -/
theorem splitColon?_eq_some_iff {cs front back : List Char} :
    splitColon? cs = some (front, back) ↔ cs = front ++ ':' :: back ∧ ':' ∉ front := by
  induction cs generalizing front with
  | nil => simp [splitColon?]
  | cons c rest ih =>
    rw [splitColon?]
    split
    · next hc =>
      subst hc
      cases front with
      | nil => simp [eq_comm]
      | cons d front =>
        simp only [Option.some.injEq, Prod.mk.injEq, List.cons_append, List.cons.injEq,
          List.mem_cons, not_or]
        exact ⟨fun h => absurd h.1 (List.cons_ne_nil _ _).symm, fun h => absurd h.1.1 h.2.1⟩
    · next hc =>
      cases front with
      | nil => simp [hc]
      | cons d front =>
        simp only [Option.map_eq_some_iff, Prod.exists, Prod.mk.injEq, List.cons.injEq,
          List.cons_append, List.mem_cons, not_or]
        constructor
        · rintro ⟨f, b, hsplit, ⟨rfl, rfl⟩, rfl⟩
          obtain ⟨hrest, hfront⟩ := ih.mp hsplit
          exact ⟨⟨rfl, hrest⟩, Ne.symm hc, hfront⟩
        · rintro ⟨⟨rfl, hrest⟩, -, hfront⟩
          exact ⟨front, back, ih.mpr ⟨hrest, hfront⟩, ⟨rfl, rfl⟩, rfl⟩

/-- **A compact identifier** is a prefix that is bound, a colon and a local part. -/
theorem exists_prefix_of_split? {t : PrefixTable} {v iri back : String}
    (h : t.split? v = some (iri, back)) :
    ∃ name, v = name ++ ":" ++ back ∧ ':' ∉ name.toList ∧ t.get? name = some iri := by
  unfold split? at h
  split at h
  · cases h
  · cases h
  · next front rest _ hsplit =>
    obtain ⟨hv, hfront⟩ := splitColon?_eq_some_iff.mp hsplit
    obtain ⟨ns, hns, heq⟩ := Option.map_eq_some_iff.mp h
    obtain ⟨rfl, rfl⟩ := Prod.mk.inj heq
    refine ⟨String.ofList front, ?_, by rwa [String.toList_ofList], hns⟩
    apply String.toList_injective
    simp [hv]

end PrefixTable

namespace LinkedData

/-! ## Terms -/

/-- A scheme is what stands in front of the first `://`. -/
theorem append_of_splitScheme? {cs scheme rest : List Char}
    (h : splitScheme? cs = some (scheme, rest)) :
    cs = scheme ++ ':' :: '/' :: '/' :: rest := by
  fun_induction splitScheme? cs generalizing scheme with
  | case1 => cases h
  | case2 =>
    obtain ⟨rfl, rfl⟩ := Prod.mk.inj (Option.some.inj h)
    rfl
  | case3 c cs _ ih =>
    obtain ⟨⟨f, b⟩, hsplit, heq⟩ := Option.map_eq_some_iff.mp h
    obtain ⟨rfl, rfl⟩ := Prod.mk.inj heq
    rw [ih hsplit]
    rfl

/-- A scheme has no colon. -/
theorem colon_not_mem_of_isSchemeChar {cs : List Char} (h : cs.all isSchemeChar = true) :
    ':' ∉ cs := fun hmem =>
  absurd (List.all_eq_true.mp h ':' hmem) (by decide)

/-- An identifier that starts with a scheme is not compact, whatever is bound. -/
theorem split?_of_isAbsolute {v : String} (t : PrefixTable) (h : isAbsolute v = true) :
    t.split? v = none := by
  unfold isAbsolute at h
  split at h
  · next scheme rest hsplit =>
    have hcolon : PrefixTable.splitColon? v.toList = some (scheme, '/' :: '/' :: rest) :=
      PrefixTable.splitColon?_eq_some_iff.mpr ⟨append_of_splitScheme? hsplit,
        colon_not_mem_of_isSchemeChar (Bool.and_eq_true_iff.mp h).2⟩
    rw [PrefixTable.split?, hcolon]
    rfl
  · cases h

/-- **A term is compact exactly where expansion changes something**: it is the identifier
itself, with a bound prefix in front of its first colon, or the identifier in brackets, which
is then its own full form. -/
theorem term_eq_or (t : PrefixTable) (v : String) :
    (term t v = v ∧ ∃ name back iri, v = name ++ ":" ++ back ∧ ':' ∉ name.toList
        ∧ t.get? name = some iri ∧ t.expand v = iri ++ back)
      ∨ (term t v = "<" ++ v ++ ">" ∧ t.expand v = v) := by
  rw [term, PrefixTable.expand]
  cases hsplit : t.split? v with
  | none => exact .inr ⟨by simp, rfl⟩
  | some part =>
    obtain ⟨iri, back⟩ := part
    have habsolute : isAbsolute v = false := by
      refine Bool.eq_false_iff.mpr fun h => ?_
      rw [split?_of_isAbsolute t h] at hsplit
      cases hsplit
    obtain ⟨name, hv, hname, hiri⟩ := PrefixTable.exists_prefix_of_split? hsplit
    exact .inl ⟨by simp [habsolute], name, back, iri, hv, hname, hiri, rfl⟩

/-- Brackets make a text longer. -/
theorem bracketed_ne (v : String) : "<" ++ v ++ ">" ≠ v := fun h => by
  have := congrArg String.length h
  simp only [String.length_append] at this
  have hone : "<".length = 1 := rfl
  omega

/-! ## What the views are about -/

/-- **What a term stands for** under a prefix table: an address in brackets for itself, and a
prefixed name for the namespace of its prefix followed by its local part. -/
inductive Denotes (t : PrefixTable) : String → String → Prop where
  | address (iri : String) : Denotes t ("<" ++ iri ++ ">") iri
  | compact {name iri : String} (back : String) (hname : ':' ∉ name.toList)
      (h : t.get? name = some iri) : Denotes t (name ++ ":" ++ back) (iri ++ back)

/-- A term stands for the full form of its identifier. -/
theorem denotes_term (t : PrefixTable) (v : String) : Denotes t (term t v) (t.expand v) := by
  obtain ⟨hterm, name, back, iri, hv, hname, hiri, hexpand⟩ | ⟨hterm, hexpand⟩ := term_eq_or t v
  · rw [hterm, hexpand, hv]
    exact .compact back hname hiri
  · rw [hterm, hexpand]
    exact .address v

/-- The identifiers of the nodes of a graph. -/
def nodeIds (graph : Json) : List String :=
  match graph.get? "@graph" with
  | some (.arr nodes) => nodes.filterMap fun n => (n.get? "@id").bind Json.string?
  | _ => []

/-- The verbs of a statement with the objects behind them. -/
def predicates : List String → List (String × String)
  | verb :: object :: _ :: rest => (verb, object) :: predicates rest
  | _ => []

/-- **The triples of a statement**: its subject with each verb and object. -/
def triples : Statement → List (String × String × String)
  | [] => []
  | subject :: rest => (predicates rest).map (subject, ·)

/-- The subjects and objects that a verb joins in a list of statements. -/
def joinedBy (verb : String) (ss : List Statement) : List (String × String) :=
  (ss.flatMap triples).filterMap fun (s, v, o) => if v = verb then some (s, o) else none

/-- The identifiers of a contract's resources: its class and its operations. -/
def resourceIds (c : Contract) : List String :=
  classId c :: c.operations.map (operationId c)

/-- The nodes of the graph carry the resources' identifiers in full. -/
theorem nodeIds_graph (prefixes : PrefixTable) (c : Contract) :
    nodeIds (graph prefixes c) = (resourceIds c).map prefixes.completed.expand := by
  have hnodes : (graph prefixes c).get? "@graph" = some (.arr (classNode prefixes.completed c
      :: c.operations.map (operationNode prefixes.completed c))) := rfl
  have hop : ∀ op, ((operationNode prefixes.completed c op).get? "@id").bind Json.string?
      = some (prefixes.completed.expand (operationId c op)) := fun _ => rfl
  have hclass : ((classNode prefixes.completed c).get? "@id").bind Json.string?
      = some (prefixes.completed.expand (classId c)) := rfl
  simp only [nodeIds, hnodes, List.filterMap_cons, hclass, List.filterMap_map, Function.comp_def,
    hop, List.filterMap_eq_map', resourceIds, List.map_cons, List.map_map]

theorem joinedBy_cons (verb : String) (s : Statement) (ss : List Statement) :
    joinedBy verb (s :: ss) = joinedBy verb [s] ++ joinedBy verb ss := by
  simp [joinedBy]

/-- What a verb joins among the statements of a contract, from what it joins in those about its
class and about each operation. -/
theorem joinedBy_statements {verb : String} {t : PrefixTable} {c : Contract}
    (first : List (String × String)) (each : ContractOperation → String × String)
    (hfirst : joinedBy verb [classStatement t c] = first)
    (heach : ∀ op, joinedBy verb (operationStatements t c op) = [each op]) :
    joinedBy verb (statements t c) = first ++ c.operations.map each := by
  rw [statements, joinedBy_cons, hfirst]
  congr 1
  induction c.operations with
  | nil => rfl
  | cons op ops ih =>
    rw [List.flatMap_cons, List.map_cons, ← List.singleton_append, ← heach op, ← ih]
    simp [joinedBy]

theorem joinedBy_a (t : PrefixTable) (c : Contract) :
    (joinedBy "a" (statements t c)).map (·.1) = (resourceIds c).map (term t) := by
  rw [joinedBy_statements [(term t (classId c), "owl:Class")]
    (fun op => (term t (operationId c op), "agent:Intent")) rfl]
  · simp [resourceIds]
  · intro op
    rw [operationStatements]
    cases op.proof <;> rfl

theorem joinedBy_operationOf (t : PrefixTable) (c : Contract) :
    joinedBy "agent:operationOf" (statements t c)
      = c.operations.map fun op => (term t (operationId c op), term t (classId c)) := by
  rw [joinedBy_statements [] (fun op => (term t (operationId c op), term t (classId c))) rfl]
  · rfl
  · intro op
    rw [operationStatements]
    cases op.proof <;> rfl

/-- **The two views name the same resources.** A term is the identifier itself or the
identifier in brackets. In the first case its prefix is bound and declared, and expansion puts
the namespace in its place; in the second expansion changes nothing. So the subjects of the
class and of the operations stand for the identifiers of the nodes, in order, and each
operation is said to be one of the resource that the first node describes. The text has the
declarations in front and the statements behind them. -/
theorem terms_denote_node_ids (prefixes : PrefixTable) (c : Contract) :
    let t := prefixes.completed
    (∀ v, (term t v = v ∨ term t v = "<" ++ v ++ ">")
      ∧ (term t v = v → ∃ name back iri, v = name ++ ":" ++ back ∧ ':' ∉ name.toList
          ∧ t.get? name = some iri
          ∧ ["@prefix", name ++ ":", "<" ++ iri ++ ">", "."] ∈ declarations t
          ∧ t.expand v = iri ++ back)
      ∧ (term t v = "<" ++ v ++ ">" → t.expand v = v))
    ∧ List.Forall₂ (Denotes t) ((joinedBy "a" (statements t c)).map (·.1))
        (nodeIds (graph prefixes c))
    ∧ (∃ ofClass ofOperations, nodeIds (graph prefixes c) = ofClass :: ofOperations
        ∧ List.Forall₂ (fun joined id => Denotes t joined.1 id ∧ Denotes t joined.2 ofClass)
            (joinedBy "agent:operationOf" (statements t c)) ofOperations)
    ∧ turtle prefixes c = statementsText (declarations t) ++ "\n"
        ++ statementsText (statements t c) := by
  intro t
  refine ⟨fun v => ?_, ?_, ⟨t.expand (classId c), _, nodeIds_graph prefixes c, ?_⟩, rfl⟩
  · obtain ⟨hterm, name, back, iri, hv, hname, hiri, hexpand⟩ | ⟨hterm, hexpand⟩ :=
      term_eq_or t v
    · have hdeclared : ["@prefix", name ++ ":", "<" ++ iri ++ ">", "."] ∈ declarations t :=
        List.mem_map_of_mem (Keyed.mem_of_get? hiri)
      exact ⟨.inl hterm, fun _ => ⟨name, back, iri, hv, hname, hiri, hdeclared, hexpand⟩,
        fun h => absurd (h.symm.trans hterm) (bracketed_ne v)⟩
    · exact ⟨.inr hterm, fun h => absurd (hterm.symm.trans h) (bracketed_ne v), fun _ => hexpand⟩
  · rw [joinedBy_a, nodeIds_graph, List.forall₂_map_left_iff, List.forall₂_map_right_iff]
    exact List.forall₂_same.mpr fun v _ => denotes_term t v
  · rw [joinedBy_operationOf, List.map_map, List.forall₂_map_left_iff,
      List.forall₂_map_right_iff]
    exact List.forall₂_same.mpr fun op _ => ⟨denotes_term t _, denotes_term t _⟩

end LinkedData

end IntentContract
