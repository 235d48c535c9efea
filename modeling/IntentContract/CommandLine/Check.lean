import IntentContract.CommandLine.Complaint

/-!
# Checking definitions and documents

A report is printed line by line, or as JSON. The exit status tells whether it has an error.
-/

namespace IntentContract

namespace Report

/-- The line of a finding; warnings are left out if only failures are printed. -/
def findingLine (quiet : Bool) (f : Finding) : List String :=
  match f.severity with
  | .error => ["  ✗ " ++ f.text]
  | .warning => if quiet then [] else ["  ! " ++ f.text]

/-- The line that sums a report up. -/
def verdictLine (quiet : Bool) (label : String) (r : Report) : List String :=
  if r.isValid then (if quiet then [] else ["✓ " ++ label ++ " is valid"])
  else
    ["✗ " ++ label ++ ": " ++ Text.natText r.errors.length ++ " error(s), "
      ++ Text.natText r.warnings.length ++ " warning(s)"]

/-- **The lines of a report.** -/
def lines (quiet : Bool) (label : String) (r : Report) : List String :=
  r.findings.flatMap (findingLine quiet) ++ verdictLine quiet label r

/-- **The JSON text of a report.** -/
def jsonText (label : String) (r : Report) : String :=
  (Json.obj [("file", .str label), ("findings", .arr (r.findings.map Finding.toJson)),
    ("valid", .bool r.isValid)]).pretty

/-- The exit status for a report. -/
def exitStatus (r : Report) : Nat :=
  if r.isValid then 0 else 1

end Report

namespace Work

variable {m : Type → Type} [Monad m] [Host m]

/-- Prints a report, and gives its exit status. -/
def printReport (quiet json : Bool) (label : String) (r : Report) : Work m Nat := do
  printLines (if json then [r.jsonText label] else r.lines quiet label)
  return r.exitStatus

/-- **Checks the definition in a file.** -/
def validateFile (config : Config) (quiet : Bool) (file : String) (rules : Option String)
    (json : Bool) : Work m Nat := do
  let source ← readText file
  let definitions ← orFailureDuring ("parsing " ++ file) ((parse source).mapError .parse)
  let rules ← configured (config.definitionRules rules)
  let report ← orFailureDuring ("validating " ++ file) (rules.check definitions)
  printReport quiet json file report

/-- **Checks the document in a file.** -/
def checkFile (config : Config) (quiet : Bool) (file : String) (kind : DocumentKind)
    (rules : Option String) (json : Bool) : Work m Nat := do
  let text ← readText file
  let rules ← configured (config.documentRules kind rules)
  let report ← orFailureDuring ("checking " ++ file) (rules.checkText text)
  printReport quiet json file report

end Work

end IntentContract
