import IntentContract.Conformance.Finding
import IntentContract.Number.Decimal
import IntentContract.Text.Digits
import IntentContract.Text.Join
import IntentContract.Text.Markup

/-!
# Test reports

The cases of a test run: a scenario that ran, or a file whose scenarios could not be run. A report
counts them, and writes them as an XML test suite that build servers understand.
-/

namespace IntentContract

/-- A scenario that ran. -/
structure RanCase where
  name : String
  expectedStatus : String
  actualStatus : String
  passed : Bool
  findings : List Finding
  error : Option String
  /-- How long it took. -/
  milliseconds : Nat

/-- What became of a case. -/
inductive CaseResult where
  | ran (r : RanCase)
  | broken (name message : String)

/-- **A case** of a test run. -/
structure TestCase where
  /-- The name of the file that the case is from. -/
  suite : String
  result : CaseResult

namespace TestCase

/-- A case that ran and passed. -/
def hasPassed (c : TestCase) : Bool :=
  match c.result with
  | .ran r => r.passed
  | .broken _ _ => false

/-- A case that ran and did not pass. -/
def hasFailed (c : TestCase) : Bool :=
  match c.result with
  | .ran r => !r.passed
  | .broken _ _ => false

/-- A case that could not be run. -/
def isBroken (c : TestCase) : Bool :=
  match c.result with
  | .ran _ => false
  | .broken _ _ => true

/-- How long a case took. -/
def milliseconds (c : TestCase) : Nat :=
  match c.result with
  | .ran r => r.milliseconds
  | .broken _ _ => 0

end TestCase

namespace TestReport

/-- The number of cases that passed. -/
def passed (cases : List TestCase) : Nat :=
  cases.countP TestCase.hasPassed

/-- The number of cases that did not pass, for whatever reason. -/
def notPassed (cases : List TestCase) : Nat :=
  cases.length - passed cases

/-- The number of cases that ran and did not pass. -/
def failures (cases : List TestCase) : Nat :=
  cases.countP TestCase.hasFailed

/-- The number of cases that could not be run. -/
def errors (cases : List TestCase) : Nat :=
  cases.countP TestCase.isBroken

/-- The line that sums up a test run. -/
def summary (cases : List TestCase) : String :=
  Text.natText (passed cases) ++ " passed, " ++ Text.natText (notPassed cases) ++ " failed"

/-! ## The suite in XML -/

/-- Milliseconds as seconds with three places. Both the number and the quotient are doubles. -/
def secondsText (milliseconds : Nat) : String :=
  let (num, den) := (Double.ofInt milliseconds).fraction
  (Double.nearest false num (1000 * den)).fixedText 3

/-- The attributes of a case. -/
def caseAttributes (name suite time : String) : String :=
  Text.markupAttribute "name" name ++ Text.markupAttribute "classname" suite
    ++ Text.markupAttribute "time" time

/-- What is known about a failure: the findings and the error, one a line. -/
def details (r : RanCase) : String :=
  Text.join "\n" (r.findings.map Finding.text ++ r.error.toList)

/-- The element for a failure. The status words stand between quotes of the message itself. -/
def failureElement (r : RanCase) : String :=
  "    <failure message=\"expected status '" ++ Text.escapeMarkup r.expectedStatus ++ "', got '"
    ++ Text.escapeMarkup r.actualStatus ++ "'\">" ++ Text.escapeMarkup (details r)
    ++ "</failure>\n"

/-- The element for a case. -/
def caseElement (c : TestCase) : String :=
  match c.result with
  | .ran r =>
    "  <testcase" ++ caseAttributes r.name c.suite (secondsText r.milliseconds)
      ++ (if r.passed then "/>\n" else ">\n" ++ failureElement r ++ "  </testcase>\n")
  | .broken name message =>
    "  <testcase" ++ caseAttributes name c.suite "0.000" ++ ">\n    <error"
      ++ Text.markupAttribute "message" message ++ "/>\n  </testcase>\n"

/-- The milliseconds that all cases took together. -/
def totalTime (cases : List TestCase) : Nat :=
  cases.foldl (fun total c => total + c.milliseconds) 0

/-- The opening tag of the suite, with the counts. -/
def suiteTag (cases : List TestCase) : String :=
  "<testsuite" ++ Text.markupAttribute "name" "agentidl"
    ++ Text.markupAttribute "tests" (Text.natText cases.length)
    ++ Text.markupAttribute "failures" (Text.natText (failures cases))
    ++ Text.markupAttribute "errors" (Text.natText (errors cases))
    ++ Text.markupAttribute "time" (secondsText (totalTime cases)) ++ ">\n"

/-- **The report of a test run** as an XML document. -/
def xml (cases : List TestCase) : String :=
  "<?xml version=\"1.0\" encoding=\"UTF-8\"?>\n" ++ suiteTag cases
    ++ String.join (cases.map caseElement) ++ "</testsuite>\n"

end TestReport

end IntentContract
