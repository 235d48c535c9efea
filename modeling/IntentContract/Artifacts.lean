import IntentContract.Generated.Handlers
import IntentContract.LinkedData.Graph

/-!
# Everything a compilation produces
-/

namespace IntentContract

/-- **The artifacts** of a source text. -/
structure Artifacts where
  contract : Contract
  modules : List Generated.Modules
  graph : Json
  turtle : String

/-- **Compiles a source text** in some flavors, under a prefix table. -/
def compile (source : String) (flavors : List Flavor) (prefixes : PrefixTable) :
    Except Failure Artifacts :=
  match Contract.ofSource source with
  | .error e => .error e
  | .ok c =>
    .ok {
      contract := c
      modules := flavors.map c.generate
      graph := LinkedData.graph prefixes c
      turtle := LinkedData.turtle prefixes c }

end IntentContract
