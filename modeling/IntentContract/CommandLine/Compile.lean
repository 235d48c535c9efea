import IntentContract.Artifacts
import IntentContract.CommandLine.Complaint

/-!
# Compiling a file

All that a compilation produces is computed before anything is written.
-/

namespace IntentContract

/-- The linked-data files, named after the interface. -/
def Artifacts.linkedFiles (a : Artifacts) : List Generated.SourceFile :=
  let stem := dashed a.contract.name
  [⟨stem ++ ".jsonld", a.graph.pretty ++ "\n"⟩, ⟨stem ++ ".ttl", a.turtle⟩]

/-- **The files of a compilation.** -/
def Artifacts.files (a : Artifacts) : List Generated.SourceFile :=
  (a.modules.flatMap fun g => [g.client, g.handlers]) ++ a.linkedFiles

namespace Work

variable {m : Type → Type} [Monad m] [Host m]

/-- Writes files into a directory, and gives their paths. -/
def writeFiles (directory : String) : List Generated.SourceFile → Work m (List String)
  | [] => return []
  | f :: rest => do
    let path := Path.join directory f.name
    writeText path f.text
    return path :: (← writeFiles directory rest)

/-- What is printed after a compilation. -/
def compiledLines (c : Contract) (paths : List String) : List String :=
  ("✓ compiled " ++ c.name ++ " (" ++ Text.natText c.operations.length ++ " operations)")
    :: paths.map ("  wrote " ++ ·)

/-- **Compiles a file** into a directory. -/
def compileFile (config : Config) (quiet : Bool) (file out : String)
    (flavors : Option (List Flavor)) : Work m Nat := do
  let flavors := flavors.getD [config.flavor.getD .typeScript]
  let source ← readText file
  let a ← orFailureDuring ("compiling " ++ file) (compile source flavors config.prefixTable)
  orFault ("creating " ++ out) (← (Host.createDirectory out : m (Except FileFault Unit)))
  let paths ← writeFiles out a.files
  unless quiet do printLines (compiledLines a.contract paths)
  return 0

end Work

end IntentContract
