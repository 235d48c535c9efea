import IntentContract.CommandLine.Complaint
import IntentContract.Scenario.Run
import IntentContract.TestReport

/-!
# Running scenario files

A scenario file holds one scenario or a list of them. The cases of a file do not depend on other
files: a file that cannot be loaded, or one of whose definitions cannot be compiled, is a single
broken case.
-/

namespace IntentContract

/-- The words for a record that could not be read. -/
def Json.RecordError.text : Json.RecordError → String
  | .missingField name => "missing field `" ++ name ++ "`"
  | .malformed => "malformed record"

namespace Work

variable {m : Type → Type} [Monad m] [Host m]

/-! ## Finding the files -/

/-- The scenario files in a directory, in the order of their names, those of a directory within it
at its place. A path has a limited length on every host, so that `depth` is no limit in practice. -/
def filesIn : Nat → String → Work m (List String)
  | 0, directory => throw ⟨["reading " ++ directory, "File name too long (os error 36)"]⟩
  | depth + 1, directory => do
    let names ← orFault ("reading " ++ directory)
      (← (Host.entries directory : m (Except FileFault (List String))))
    let found ← (NameSet.ofList names).mapM fun name => do
      let path := Path.join directory name
      if ← (Host.isDirectory path : m Bool) then filesIn depth path
      else if Path.extension? path = some "json" then return [path]
      else return []
    return found.flatten

/-- The greatest number of directories within each other. -/
def maxDepth : Nat := 4096

/-- **The scenario files at paths.** A file that is named itself may have any extension. -/
def scenarioFiles (paths : List String) : Work m (List String) := do
  let found ← paths.mapM fun path => do
    if ← (Host.isDirectory path : m Bool) then filesIn maxDepth path
    else if ← (Host.isFile path : m Bool) then return [path]
    else throw ⟨["no such file or directory: " ++ path]⟩
  return found.flatten

/-! ## Loading a file -/

/-- The directory of a file. -/
def directoryOf (file : String) : String :=
  (Path.parent? file).getD "."

/-- The JSON value in a text. -/
def parseJson (path text : String) : Work m Json :=
  match Json.parse? text with
  | some v => pure v.normal
  | none => throw ⟨["parsing " ++ path, "malformed text"]⟩

/-- The scenarios in a value. -/
def scenariosIn : Json → Except Json.RecordError (List Scenario)
  | .arr items => items.mapM Scenario.reader.read
  | v => (Scenario.reader.read v).map ([·])

/-- A scenario with its delegation in place. A delegation that is a text names a file. -/
def withDelegation (directory : String) (s : Scenario) : Work m Scenario :=
  match s.delegation with
  | some (.str reference) => do
    let path := Path.join directory reference
    let document ← parseJson path (← readText path)
    return { s with delegation := some document }
  | _ => return s

/-- The scenarios in a file. -/
def loadScenarios (file : String) : Work m (List Scenario) := do
  let v ← parseJson file (← readText file)
  let scenarios ← match scenariosIn v with
    | .ok scenarios => pure scenarios
    | .error e => throw ⟨["reading scenario " ++ file, e.text]⟩
  scenarios.mapM (withDelegation (directoryOf file))

/-- The scenarios in a file, each with the contract that its definition declares. -/
def loadFile (file : String) : Work m (List (Scenario × Contract)) := do
  (← loadScenarios file).mapM fun s => do
    return (s, ← readContract (Path.join (directoryOf file) s.definition))

/-! ## Running -/

/-- The case of a scenario that ran. -/
def caseOf (suite : String) (o : Outcome) (milliseconds : Nat) : TestCase where
  suite := suite
  result := .ran {
    name := o.name
    expectedStatus := o.expectedStatus
    actualStatus := o.actualStatus
    passed := o.passed
    findings := o.findings
    error := o.error
    milliseconds }

/-- Runs a scenario. -/
def runCase (rules : CallRules) (suite : String) (s : Scenario) (c : Contract) : m TestCase := do
  let now ← Host.now
  let start ← Host.milliseconds
  let outcome := s.runScripts rules c now
  let stop ← Host.milliseconds
  return caseOf suite outcome (stop - start)

/-- **The cases of a file.** -/
def fileCases (rules : CallRules) (file : String) : m (List TestCase) := do
  let suite := Path.stem file
  match ← (loadFile file).run with
  | .error complaint => return [{ suite, result := .broken file complaint.text }]
  | .ok loaded => loaded.mapM fun (s, c) => runCase rules suite s c

/-- The lines of a case; those that passed are left out if only failures are printed. -/
def caseLines (quiet : Bool) (c : TestCase) : List String :=
  match c.result with
  | .broken name message => ["ERROR " ++ name ++ ": " ++ message]
  | .ran r =>
    let findings := r.findings.map fun f => "  " ++ f.text
    if r.passed then (if quiet then [] else ("PASS " ++ r.name) :: findings)
    else
      ("FAIL " ++ r.name ++ " (expected '" ++ r.expectedStatus ++ "', got '" ++ r.actualStatus
        ++ "')") :: r.error.toList.map ("  " ++ ·) ++ findings

/-- The rules for the documents about a call, as configured. -/
def callRules (config : Config) : Work m CallRules := do
  let delegation ← configured (config.documentRules .delegation none)
  let execution ← configured (config.documentRules .execution none)
  return { delegation, execution }

/-- **Runs the scenarios at paths.** -/
def testPaths (config : Config) (quiet : Bool) (paths : List String) (report : Option String) :
    Work m Nat := do
  let files ← scenarioFiles paths
  if files.isEmpty then throw ⟨["no scenario files found"]⟩
  let rules ← callRules config
  let cases := (← (files.mapM (fileCases rules) : m (List (List TestCase)))).flatten
  printLines (cases.flatMap (caseLines quiet) ++ [TestReport.summary cases])
  match report with
  | some path => writeText path (TestReport.xml cases)
  | none => pure ()
  return if TestReport.notPassed cases = 0 then 0 else 1

end Work

end IntentContract
