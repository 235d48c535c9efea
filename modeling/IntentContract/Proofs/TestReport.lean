import IntentContract.Proofs.Text.Markup
import IntentContract.TestReport

/-!
# Test reports read back

Whoever receives a report reads it as markup. This module says what they see: `read?` takes the
tree of a document to the counts of its suite and to its cases, and `shown` is what a case should
look like from there. The names and messages of a case may hold any characters, among them quotes,
tags and entities, and the tree of a report has them as they are.

The tree is given by `document`. Its elements are spelled by the texts that the report writes for
them (`spelled_caseElement`), so that the document is spelled by the report, and the general
reader of markup does the rest.
-/

namespace IntentContract.TestReport

open Markup

/-! ## Reading a suite -/

/-- What a report says about a case. -/
inductive Verdict where
  | passed
  | failed (message body : String)
  | broken (message : String)

/-- A case as a report has it. -/
structure ReportedCase where
  name : String
  suite : String
  verdict : Verdict

/-- **A report, as it is read.** -/
structure Report where
  tests : Nat
  failures : Nat
  errors : Nat
  cases : List ReportedCase

/-- The number that a text of digits stands for. -/
def number? (s : String) : Option Nat :=
  if s.toList ≠ [] ∧ s.toList.all Char.isDigit then some (Text.digitsValue s.toList) else none

/-- What the only element of a case says about it. -/
def verdict? : List Node → Option Verdict
  | [.element "failure" attributes content] => do
    let message ← Keyed.get? "message" attributes
    return .failed message (textOf content)
  | [.empty "error" attributes] => do
    let message ← Keyed.get? "message" attributes
    return .broken message
  | _ => none

/-- The case of an element. It has passed if there is nothing inside. -/
def case? : Node → Option ReportedCase
  | .empty "testcase" attributes => do
    return ⟨← Keyed.get? "name" attributes, ← Keyed.get? "classname" attributes, .passed⟩
  | .element "testcase" attributes content => do
    let verdict ← verdict? (elements content)
    return ⟨← Keyed.get? "name" attributes, ← Keyed.get? "classname" attributes, verdict⟩
  | _ => none

/-- The report of the only element of a document. -/
def suite? : List Node → Option Report
  | [.element "testsuite" attributes content] => do
    let tests ← number? (← Keyed.get? "tests" attributes)
    let failures ← number? (← Keyed.get? "failures" attributes)
    let errors ← number? (← Keyed.get? "errors" attributes)
    return ⟨tests, failures, errors, ← (elements content).mapM case?⟩
  | _ => none

/-- **Reads a report.** -/
def read? (text : String) : Option Report := do
  let nodes ← nodes? text
  suite? (elements nodes)

/-- What tells that a status was not the expected one. -/
def statusMessage (r : RanCase) : String :=
  "expected status '" ++ r.expectedStatus ++ "', got '" ++ r.actualStatus ++ "'"

/-- **What a case looks like in a report.** -/
def shown (c : TestCase) : ReportedCase :=
  match c.result with
  | .ran r =>
    ⟨r.name, c.suite,
      if r.passed then .passed
      else .failed (statusMessage r)
        (Text.join "\n" (r.findings.map Finding.text ++ r.error.toList))⟩
  | .broken name message => ⟨name, c.suite, .broken message⟩

theorem number?_natText (n : Nat) : number? (Text.natText n) = some n := by
  have hdigits : (Nat.toDigits 10 n).all Char.isDigit = true :=
    List.all_eq_true.mpr fun _ hc => Nat.isDigit_of_mem_toDigits (by decide) (by decide) hc
  have hvalue : Text.digitsValue (Nat.toDigits 10 n) = n := Nat.ofDigitChars_ten_toDigits
  rw [number?, Text.natText, String.toList_ofList, if_pos ⟨Nat.toDigits_ne_nil, hdigits⟩, hvalue]

/-! ## The tree of a report -/

/-- The attributes of the element of a case. -/
def attributesOf (name suite time : String) : List (String × String) :=
  [("name", name), ("classname", suite), ("time", time)]

/-- The element of a failure. -/
def failureNode (r : RanCase) : Node :=
  .element "failure" [("message", statusMessage r)] (chars (details r))

/-- The element of a case. -/
def caseNode (c : TestCase) : Node :=
  match c.result with
  | .ran r =>
    let attributes := attributesOf r.name c.suite (secondsText r.milliseconds)
    if r.passed then .empty "testcase" attributes
    else .element "testcase" attributes (chars "\n    " ++ [failureNode r] ++ chars "\n  ")
  | .broken name message =>
    .element "testcase" (attributesOf name c.suite "0.000")
      (chars "\n    " ++ [.empty "error" [("message", message)]] ++ chars "\n  ")

/-- A case on its line of the suite. -/
def caseNodes (c : TestCase) : List Node :=
  chars "  " ++ [caseNode c] ++ chars "\n"

/-- The attributes of the suite. -/
def suiteAttributes (cases : List TestCase) : List (String × String) :=
  [("name", "agentidl"), ("tests", Text.natText cases.length),
    ("failures", Text.natText (failures cases)), ("errors", Text.natText (errors cases)),
    ("time", secondsText (totalTime cases))]

/-- **The tree of a report.** -/
def document (cases : List TestCase) : List Node :=
  [.instruction] ++ chars "\n"
    ++ [.element "testsuite" (suiteAttributes cases) (chars "\n" ++ cases.flatMap caseNodes)]
    ++ chars "\n"

theorem isElement_caseNode (c : TestCase) : (caseNode c).isElement = true := by
  unfold caseNode
  split
  · split <;> rfl
  · rfl

theorem verdict?_failureNode (r : RanCase) :
    verdict? [failureNode r] = some (.failed (statusMessage r) (details r)) := by
  simp [verdict?, failureNode, Keyed.get?, textOf_chars]

/-- **A case is read off its element.** -/
theorem case?_caseNode (c : TestCase) : case? (caseNode c) = some (shown c) := by
  obtain ⟨suite, result⟩ := c
  cases result with
  | broken name message =>
    have helements := elements_between (n := .empty "error" [("message", message)]) rfl
      "\n    " "\n  "
    simp only [caseNode, case?, helements]
    rfl
  | ran r =>
    cases hpassed : r.passed with
    | true =>
      simp only [caseNode, shown, hpassed, if_true]
      rfl
    | false =>
      have helements := elements_between (n := failureNode r) rfl "\n    " "\n  "
      simp only [caseNode, shown, hpassed, Bool.false_eq_true, if_false, case?, helements,
        verdict?_failureNode]
      rfl

theorem elements_caseNodes (c : TestCase) : elements (caseNodes c) = [caseNode c] :=
  elements_between (isElement_caseNode c) ..

theorem elements_flatMap_caseNodes (cases : List TestCase) :
    elements (cases.flatMap caseNodes) = cases.map caseNode := by
  induction cases with
  | nil => rfl
  | cons c cases ih =>
    rw [List.flatMap_cons, elements_append, elements_caseNodes, ih, List.map_cons,
      List.singleton_append]

/-- **The tree of a report is read** as its counts and its cases. -/
theorem suite?_document (cases : List TestCase) :
    suite? (elements (document cases))
      = some ⟨cases.length, failures cases, errors cases, cases.map shown⟩ := by
  have hcases : (elements (chars "\n" ++ cases.flatMap caseNodes)).mapM case?
      = some (cases.map shown) := by
    have hread : case? ∘ caseNode = fun c => pure (shown c) := funext case?_caseNode
    rw [elements_append, elements_chars, List.nil_append, elements_flatMap_caseNodes,
      List.mapM_map, hread, List.mapM_pure]
    rfl
  have helements : elements (document cases)
      = [.element "testsuite" (suiteAttributes cases) (chars "\n" ++ cases.flatMap caseNodes)] := by
    rw [document, List.append_assoc, List.append_assoc, elements_append,
      ← List.append_assoc (chars "\n"), elements_between rfl]
    rfl
  rw [helements, suite?, hcases]
  simp [suiteAttributes, Keyed.get?, number?_natText]

/-! ## The text of a report -/

theorem run_caseAttributes (name suite time : String) :
    Run SpellsAttribute (attributesOf name suite time)
      (caseAttributes name suite time).toList := by
  have hname := run_markupAttribute "name" name (by decide)
  have hsuite := run_markupAttribute "classname" suite (by decide)
  have htime := run_markupAttribute "time" time (by decide)
  rw [caseAttributes, String.toList_append, String.toList_append]
  exact (hname.append hsuite).append htime

theorem run_suiteAttributes (cases : List TestCase) :
    ∃ raw, Run SpellsAttribute (suiteAttributes cases) raw
      ∧ (suiteTag cases).toList = '<' :: "testsuite".toList ++ raw ++ ['>'] ++ "\n".toList := by
  have hname := run_markupAttribute "name" "agentidl" (by decide)
  have htests := run_markupAttribute "tests" (Text.natText cases.length) (by decide)
  have hfailures := run_markupAttribute "failures" (Text.natText (failures cases)) (by decide)
  have herrors := run_markupAttribute "errors" (Text.natText (errors cases)) (by decide)
  have htime := run_markupAttribute "time" (secondsText (totalTime cases)) (by decide)
  refine ⟨_, (((hname.append htests).append hfailures).append herrors).append htime, ?_⟩
  unfold suiteTag
  simp

/-- The message of a failure as it is written. Its own quotes are not escaped, which is no harm in
a value that ends with quotes of the other kind. -/
def writtenMessage (r : RanCase) : String :=
  "expected status '" ++ Text.escapeMarkup r.expectedStatus ++ "', got '"
    ++ Text.escapeMarkup r.actualStatus ++ "'"

theorem spellsAttribute_statusMessage (r : RanCase) :
    SpellsAttribute ("message", statusMessage r)
      (' ' :: "message".toList ++ '=' :: '"' :: (writtenMessage r).toList ++ ['"']) := by
  have hopen := run_plain "expected status '" (by decide)
  have hbetween := run_plain "', got '" (by decide)
  have hclose := run_plain "'" (by decide)
  have hvalue := (((hopen.append (run_escapeMarkup r.expectedStatus)).append hbetween).append
    (run_escapeMarkup r.actualStatus)).append hclose
  -- The parts in a row are the two texts again.
  simp only [← String.toList_append] at hvalue
  have hquote : '"' ∉ (writtenMessage r).toList := by
    unfold writtenMessage
    simp [quote_not_mem_escapeMarkup]
  exact .mk (by decide) hvalue hquote

/-- The text of a failure spells its element, on a line of its own. -/
theorem spelled_failureNode (r : RanCase) :
    ∃ raw, Spelled [failureNode r] raw
      ∧ (failureElement r).toList = "    ".toList ++ raw ++ "\n".toList := by
  have hmessage := Run.single (spellsAttribute_statusMessage r)
  have hbody := Spelled.chars (run_escapeMarkup (details r))
  refine ⟨_, .element "failure" (by decide) hmessage hbody, ?_⟩
  unfold failureElement writtenMessage
  simp

/-- An element of a case that is not empty, in the lines of the suite. -/
theorem spelled_testcase {attributes : List (String × String)} {raw body : List Char}
    {content : Node} (hattributes : Run SpellsAttribute attributes raw)
    (hcontent : Spelled [content] body) :
    Spelled (chars "  " ++ [.element "testcase" attributes
        (chars "\n    " ++ [content] ++ chars "\n  ")] ++ chars "\n")
      ("  <testcase".toList ++ raw ++ ">\n    ".toList ++ body ++ "\n  </testcase>\n".toList) := by
  have hlines := hcontent.between "\n    " "\n  " (by decide) (by decide)
  have hcase := Spelled.element "testcase" (by decide) hattributes hlines
  have hspelled := hcase.between "  " "\n" (by decide) (by decide)
  simpa using hspelled

/-- **The text of a case spells its element**, in the lines of the suite. -/
theorem spelled_caseElement (c : TestCase) : Spelled (caseNodes c) (caseElement c).toList := by
  obtain ⟨suite, result⟩ := c
  unfold caseNodes caseNode caseElement
  cases result with
  | broken name message =>
    have hattributes := run_caseAttributes name suite "0.000"
    have herror := run_markupAttribute "message" message (by decide)
    have hspelled := spelled_testcase hattributes (.empty "error" (by decide) herror)
    simpa using hspelled
  | ran r =>
    have hattributes := run_caseAttributes r.name suite (secondsText r.milliseconds)
    cases hpassed : r.passed with
    | true =>
      have hcase := Spelled.empty "testcase" (by decide) hattributes
      have hspelled := hcase.between "  " "\n" (by decide) (by decide)
      simpa [hpassed] using hspelled
    | false =>
      obtain ⟨raw, hfailure, htext⟩ := spelled_failureNode r
      have hspelled := spelled_testcase hattributes hfailure
      simpa [hpassed, htext] using hspelled

theorem spelled_caseElements (cases : List TestCase) :
    Spelled (cases.flatMap caseNodes) (String.join (cases.map caseElement)).toList := by
  induction cases with
  | nil => exact .nil
  | cons c cases ih =>
    rw [List.flatMap_cons, List.map_cons, String.join_cons, String.toList_append]
    exact (spelled_caseElement c).append ih

/-- **The report spells its tree.** -/
theorem spelled_xml (cases : List TestCase) : Spelled (document cases) (xml cases).toList := by
  obtain ⟨raw, hattributes, htag⟩ := run_suiteAttributes cases
  have hbreak := Spelled.plain "\n" (by decide)
  have hinstruction := @Spelled.instruction "xml version=\"1.0\" encoding=\"UTF-8\"".toList
    (by decide)
  have hsuite := Spelled.element "testsuite" (by decide) hattributes
    (hbreak.append (spelled_caseElements cases))
  have hspelled := ((hinstruction.append hbreak).append hsuite).append hbreak
  unfold xml document
  simpa [htag] using hspelled

/-- **A report reads back.** Whatever texts its cases hold, the report is a document with the
numbers of all, of the failed and of the broken cases in its header, and with the cases in their
order: what passed as an empty element, what failed with the two status words and with its findings
and its error line by line, and what is broken with its message. -/
theorem read?_xml (cases : List TestCase) :
    read? (xml cases) = some
      { tests := cases.length
        failures := cases.countP TestCase.hasFailed
        errors := cases.countP TestCase.isBroken
        cases := cases.map shown } := by
  rw [read?, (spelled_xml cases).nodes?_eq]
  exact suite?_document cases

end IntentContract.TestReport
