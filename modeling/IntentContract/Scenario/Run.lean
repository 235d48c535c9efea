import IntentContract.Conformance.DocumentRules
import IntentContract.Scenario.Basic

/-!
# Running a scenario

A delegation is checked before the call is made, and one with an error keeps it from being made.
A call that comes back is written up as an execution record, which is checked in turn.
-/

namespace IntentContract

/-- The rules that the documents about a call are checked against. -/
structure CallRules where
  delegation : DocumentRules
  execution : DocumentRules

/-- The usual rules for both documents. -/
def CallRules.usual : CallRules where
  delegation := .delegation
  execution := .execution

/-- **The outcome of a scenario.** -/
structure Outcome where
  name : String
  expectedStatus : String
  actualStatus : String
  /-- What the target answered, if it did. -/
  result : Option Json
  /-- The findings about the delegation if it was rejected, else about the execution record. -/
  findings : List Finding
  /-- Why there is no answer, or no check of it. -/
  error : Option String

namespace Outcome

/-- A scenario passes if it ends with the status it expects. -/
def passed (o : Outcome) : Bool :=
  o.actualStatus == o.expectedStatus

/-- The JSON record of an outcome. -/
def toJson (o : Outcome) : Json :=
  .obj [("name", .str o.name), ("expectedStatus", .str o.expectedStatus),
    ("actualStatus", .str o.actualStatus), ("passed", .bool o.passed),
    ("result", o.result.getD .null), ("findings", .arr (o.findings.map Finding.toJson)),
    ("error", Json.optional o.error)]

end Outcome

/-- The status of a call that fails. -/
def errorStatus : String := "error"

/-- The status of an answer that gives none. -/
def completedStatus : String := "completed"

/-- **The status that an answer gives.** -/
def statusOf (answer : Json) : String :=
  ((answer.get? "status").bind Json.string?).getD completedStatus

namespace Scenario

/-- An outcome without an answer. -/
def unanswered (s : Scenario) (status : String) (findings : List Finding) (error : Option String) :
    Outcome where
  name := s.name
  expectedStatus := s.expectedStatus
  actualStatus := status
  result := none
  findings := findings
  error := error

/-- The outcome of a call that cannot be made or fails. -/
def failed (s : Scenario) (e : Failure) : Outcome :=
  s.unanswered errorStatus [] (some e.message)

/-- What keeps the call from being made: a delegation that cannot be checked or has an error. -/
def refusal? (rules : CallRules) (s : Scenario) : Option Outcome :=
  match s.delegation with
  | none => none
  | some document =>
    match rules.delegation.check document with
    | .error e => some (s.failed e)
    | .ok report =>
      if report.isValid then none else some (s.unanswered rejectedStatus report.findings none)

/-- A field that an answer carries over into the record. -/
def attachment (answer : Json) (name : String) : List (String × Json) :=
  match answer.get? name with
  | some v => [(name, v)]
  | none => []

/-- **The execution record** of a call. -/
def executionRecord (s : Scenario) (c : Contract) (now : Instant) (answer : Json) : Json :=
  let op := c.operation? s.operation
  let intent := (op.map (·.intent)).getD ""
  let payload := (op.map fun op => op.payloadOf (s.arguments c)).getD []
  .obj (Keyed.ofList (
    [("from", .str s.caller), ("to", .str s.target), ("operation", .str s.operation),
      ("intent", .str intent), ("timestamp", .str now.textInDigits), ("payload", .obj payload),
      ("result", answer)]
    ++ DocumentRules.proofCarriers.flatMap (attachment answer)))

/-- The outcome of a call that comes back. -/
def answered (rules : CallRules) (s : Scenario) (c : Contract) (now : Instant) (answer : Json) :
    Outcome :=
  let checked := rules.execution.check (s.executionRecord c now answer)
  { name := s.name
    expectedStatus := s.expectedStatus
    actualStatus := statusOf answer
    result := some answer
    findings := match checked with
      | .ok report => report.findings
      | .error _ => []
    error := match checked with
      | .ok _ => none
      | .error e => some e.message }

/-- **Runs a scenario** at an instant. The target is set up by `install`, only if the call is
made. -/
def run {m : Type → Type} [Monad m] (rules : CallRules) (s : Scenario) (c : Contract)
    (now : Instant) (install : Agent m → m (Agent m)) : m Outcome := do
  match s.refusal? rules with
  | some outcome => return outcome
  | none =>
    let caller : Agent m := .new s.caller c
    let target ← install (.new s.target c)
    match ← (caller.call target now s.operation (s.arguments c)).run with
    | .ok answer => return s.answered rules c now answer
    | .error e => return s.failed e

/-- **Runs a scenario by its own scripts.** -/
def runScripts (rules : CallRules) (s : Scenario) (c : Contract) (now : Instant) : Outcome :=
  Id.run (s.run rules c now fun target => pure (target.followAll s.scripts))

end Scenario

end IntentContract
