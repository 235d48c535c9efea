import IntentContract.LinkedData.Graph
import IntentContract.Proofs.Contract.Canonical

/-!
# What a graph tells of its contract

A graph leaves out what a contract does not say: an intent or a proof that is not declared has no
field, and a context of the contract's own is one more item in front of the terms. Identifiers are
no help in telling the two cases apart. They are expanded, and an operation without an intent goes
by its place, which may well be the intent of another operation.

Nothing is lost all the same, because whatever is left out or put in has a place of its own. The
graph is read here without the table it was made with, and gives back the name, the context and the
registry of intents. Of the address of its semantics the graph has the full form only. So two
contracts have one graph just if they have all this in common (`graph_eq_iff`), under every prefix
table.
-/

namespace IntentContract.LinkedData

/-! ## Reading a graph -/

/-- The text under a key of a node. -/
def textAt? (key : String) (node : Json) : Option String :=
  (node.get? key).bind Json.string?

/-- The nodes of a graph. -/
def nodesOf (graph : Json) : List Json :=
  match graph.get? "@graph" with
  | some (.arr nodes) => nodes
  | _ => []

/-- The name of the contract in a graph: the label of the first node. -/
def nameIn? (graph : Json) : Option String :=
  (nodesOf graph).head?.bind (textAt? "label")

/-- The full form of the contract's address in a graph. -/
def semanticIn? (graph : Json) : Option String :=
  (nodesOf graph).head?.bind (textAt? "semantic")

/-- The contract's own context in a graph: the first item of the context, if that is a text. -/
def contextIn? (graph : Json) : Option String :=
  match graph.get? "@context" with
  | some (.arr (first :: _)) => first.string?
  | _ => none

/-- The row of the registry that a node describes. -/
def entryIn? (node : Json) : Option IntentEntry :=
  (textAt? "label" node).map fun name =>
    ⟨name, (textAt? "intent" node).getD "", textAt? "proof" node⟩

/-- The registry of intents in a graph: a row for each node behind the first. -/
def intentsIn (graph : Json) : List IntentEntry :=
  (nodesOf graph).tail.filterMap entryIn?

/-! ## What is found there -/

variable (prefixes : PrefixTable) (c : Contract)

theorem nodesOf_graph : nodesOf (graph prefixes c) = classNode prefixes.completed c
    :: c.operations.map (operationNode prefixes.completed c) :=
  rfl

theorem nameIn?_graph : nameIn? (graph prefixes c) = some c.name :=
  rfl

theorem semanticIn?_graph :
    semanticIn? (graph prefixes c) = c.semantic.map prefixes.completed.expand := by
  rw [semanticIn?, nodesOf_graph, List.head?_cons, Option.bind_some, classNode]
  cases c.semantic <;> rfl

/-- The terms of the vocabulary are no text, so they are not taken for a context. -/
theorem contextIn?_graph : contextIn? (graph prefixes c) = c.context := by
  have hcontext : (graph prefixes c).get? "@context" = some (.arr
      ((c.context.map Json.str).toList ++ [contextTerms prefixes.completed])) := rfl
  rw [contextIn?, hcontext]
  cases c.context <;> rfl

/-- **The node of an operation is read back**: an intent that is not there was empty, whatever
identifier the node has. -/
theorem entryIn?_operationNode (t : PrefixTable) (op : ContractOperation) :
    entryIn? (operationNode t c op) = some ⟨op.name, op.intent, op.proof⟩ := by
  rw [operationNode]
  by_cases hintent : op.intent = ""
  · rw [if_pos hintent, hintent]
    cases op.proof <;> rfl
  · rw [if_neg hintent]
    cases op.proof <;> rfl

/-- **The registry is read back** from the nodes of the operations, in order. -/
theorem intentsIn_graph : intentsIn (graph prefixes c) = c.intents := by
  rw [intentsIn, nodesOf_graph, List.tail_cons, List.filterMap_map]
  simp only [Function.comp_def, entryIn?_operationNode, List.filterMap_eq_map']
  rfl

/-! ## One graph -/

variable {prefixes c} {d : Contract}

theorem operationId_congr (hname : c.name = d.name) {o p : ContractOperation}
    (hop : o.name = p.name) (hintent : o.intent = p.intent) :
    operationId c o = operationId d p := by
  rw [operationId, operationId, hname, hop, hintent]

/-- The node of an operation shows no more than its row of the registry. -/
theorem operationNode_congr (t : PrefixTable) (hname : c.name = d.name) {o p : ContractOperation}
    (h : IntentEntry.mk o.name o.intent o.proof = ⟨p.name, p.intent, p.proof⟩) :
    operationNode t c o = operationNode t d p := by
  obtain ⟨hop, hintent, hproof⟩ := IntentEntry.mk.inj h
  rw [operationNode, operationNode, operationId_congr hname hop hintent, hop, hintent, hproof]

theorem graph_congr (hname : c.name = d.name) (hcontext : c.context = d.context)
    (hsemantic : c.semantic.map prefixes.completed.expand
      = d.semantic.map prefixes.completed.expand)
    (hintents : c.intents = d.intents) : graph prefixes c = graph prefixes d := by
  have hclass : classNode prefixes.completed c = classNode prefixes.completed d := by
    rw [classNode, classNode, classId, classId, hname, hsemantic]
  have hoperations : c.operations.map (operationNode prefixes.completed c)
      = d.operations.map (operationNode prefixes.completed d) :=
    map_eq_map_iff_forall₂.mpr ((map_eq_map_iff_forall₂.mp hintents).imp
      fun _ _ => operationNode_congr prefixes.completed hname)
  rw [graph, graph, hcontext, hclass, hoperations]

/-- **A graph loses nothing of what a contract means.** Under every prefix table, contracts have one
graph just if they have the same name, the same context or none, the same operations up to name,
intent and proof, in the same order, and addresses with one full form. -/
theorem graph_eq_iff (prefixes : PrefixTable) (c d : Contract) :
    graph prefixes c = graph prefixes d
      ↔ c.name = d.name ∧ c.context = d.context
        ∧ (c.operations.map fun op => (op.name, op.intent, op.proof))
          = (d.operations.map fun op => (op.name, op.intent, op.proof))
        ∧ c.semantic.map prefixes.completed.expand = d.semantic.map prefixes.completed.expand := by
  have hrows : (c.operations.map fun op => (op.name, op.intent, op.proof))
      = (d.operations.map fun op => (op.name, op.intent, op.proof)) ↔ c.intents = d.intents := by
    simp only [Contract.intents, map_eq_map_iff_forall₂, Prod.mk.injEq, IntentEntry.mk.injEq]
  rw [hrows]
  constructor
  · intro h
    have hname := congrArg nameIn? h
    have hcontext := congrArg contextIn? h
    have hintents := congrArg intentsIn h
    have hsemantic := congrArg semanticIn? h
    rw [nameIn?_graph, nameIn?_graph, Option.some.injEq] at hname
    rw [contextIn?_graph, contextIn?_graph] at hcontext
    rw [intentsIn_graph, intentsIn_graph] at hintents
    rw [semanticIn?_graph, semanticIn?_graph] at hsemantic
    exact ⟨hname, hcontext, hintents, hsemantic⟩
  · rintro ⟨hname, hcontext, hintents, hsemantic⟩
    exact graph_congr hname hcontext hsemantic hintents

end IntentContract.LinkedData
