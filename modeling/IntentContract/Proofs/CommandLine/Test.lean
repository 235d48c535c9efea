import IntentContract.Proofs.CommandLine.Steps
import IntentContract.Proofs.Scenario.Record

/-!
# Scenario files do not depend on each other

Loading a scenario file only reads files (`Work.isReading_loadFile`), and a run of a scenario is a
plain value of the time it is made at. So a file meets the world as it was in front of the first
one, but for the clock, which has gone on. What `test` reports for some files is therefore what it
would report for each of them alone, one after the other, but for the times (`SameButTime`). What a
file contributes is said by `FileCases`: a case for each of its scenarios, or a single broken case
if the file cannot be loaded or a definition in it cannot be compiled.

The summary and the report of a run are counted in two ways, the one by what passed, the other by
what failed and what is broken. They agree because every case is one of the three
(`TestReport.length_eq`).
-/

namespace IntentContract

open World

/-! ## Counting cases -/

namespace TestReport

/-- **A case passes, fails, or is broken.** -/
theorem length_eq (cases : List TestCase) :
    cases.length = passed cases + failures cases + errors cases := by
  induction cases with
  | nil => rfl
  | cons c cases ih =>
    simp only [passed, failures, errors, List.countP_cons, List.length_cons] at ih ⊢
    obtain ⟨suite, result⟩ := c
    cases result with
    | broken name message =>
      simp [TestCase.hasPassed, TestCase.hasFailed, TestCase.isBroken]
      omega
    | ran r =>
      cases hr : r.passed <;>
        simp [TestCase.hasPassed, TestCase.hasFailed, TestCase.isBroken, hr] <;> omega

/-- The summary in terms of what failed and what is broken. -/
theorem summary_eq (cases : List TestCase) :
    summary cases = Text.natText (cases.length - failures cases - errors cases) ++ " passed, "
      ++ Text.natText (failures cases + errors cases) ++ " failed" := by
  have hpassed : passed cases = cases.length - failures cases - errors cases := by
    rw [length_eq cases]
    omega
  have hnotPassed : notPassed cases = failures cases + errors cases := by
    rw [notPassed, length_eq cases]
    omega
  rw [summary, hpassed, hnotPassed]

/-- Nothing is left if everything ran and passed. -/
theorem notPassed_eq_zero_iff {cases : List TestCase} :
    notPassed cases = 0 ↔ ∀ c ∈ cases, ∃ r, c.result = .ran r ∧ r.passed = true := by
  have hpassed : ∀ c : TestCase, c.hasPassed = true ↔ ∃ r, c.result = .ran r ∧ r.passed = true := by
    rintro ⟨suite, result⟩
    cases result <;> simp [TestCase.hasPassed]
  have hle : passed cases ≤ cases.length := List.countP_le_length
  have hall : passed cases = cases.length ↔ ∀ c ∈ cases, c.hasPassed = true :=
    List.countP_eq_length
  simp only [hpassed] at hall
  rw [← hall, notPassed]
  omega

/-- Digits stand for themselves in markup. -/
theorem markupAttribute_natText (name : String) (n : Nat) :
    Text.markupAttribute name (Text.natText n)
      = " " ++ name ++ "=\"" ++ Text.natText n ++ "\"" := by
  have hdigit : ∀ c : Char, c.isDigit = true → Text.entity c = [c] := by
    intro c hc
    have hne : ∀ d : Char, d.isDigit = false → c ≠ d := by
      rintro d hd rfl
      rw [hc] at hd
      cases hd
    rw [Text.entity, if_neg (hne _ rfl), if_neg (hne _ rfl), if_neg (hne _ rfl),
      if_neg (hne _ rfl), if_neg (hne _ rfl)]
  have hplain : Text.escapeMarkup (Text.natText n) = Text.natText n := by
    rw [Text.escapeMarkup, Text.natText, String.toList_ofList]
    have hchars : ∀ c ∈ Nat.toDigits 10 n, Text.entity c = [c] := fun c hc =>
      hdigit c (Nat.isDigit_of_mem_toDigits (by decide) (by decide) hc)
    rw [List.flatMap_congr hchars, List.flatMap_singleton']
  rw [Text.markupAttribute, hplain]

/-- **A report whose header has these counts.** -/
def HasHeader (report : String) (tests failures errors : Nat) : Prop :=
  ∃ rest, report = "<?xml version=\"1.0\" encoding=\"UTF-8\"?>\n"
    ++ "<testsuite name=\"agentidl\" tests=\"" ++ Text.natText tests
    ++ "\" failures=\"" ++ Text.natText failures
    ++ "\" errors=\"" ++ Text.natText errors ++ "\"" ++ rest

theorem hasHeader_xml (cases : List TestCase) :
    HasHeader (xml cases) cases.length (failures cases) (errors cases) := by
  have hname : Text.markupAttribute "name" "agentidl" = " name=\"agentidl\"" := by decide +kernel
  have htests : "<testsuite" ++ (" name=\"agentidl\"" ++ (" " ++ ("tests" ++ "=\"")))
      = "<testsuite name=\"agentidl\" tests=\"" := by decide +kernel
  have hfailures : "\"" ++ (" " ++ ("failures" ++ "=\"")) = "\" failures=\"" := by decide +kernel
  have herrors : "\"" ++ (" " ++ ("errors" ++ "=\"")) = "\" errors=\"" := by decide +kernel
  refine ⟨Text.markupAttribute "time" (secondsText (totalTime cases)) ++ ">\n"
    ++ String.join (cases.map caseElement) ++ "</testsuite>\n", ?_⟩
  unfold xml suiteTag
  rw [hname, markupAttribute_natText "tests", markupAttribute_natText "failures",
    markupAttribute_natText "errors", ← htests, ← hfailures, ← herrors]
  simp only [String.append_assoc]

end TestReport

/-! ## What a file holds -/

namespace FileTree

/-- **A file that holds a JSON value.** -/
def HoldsJson (t : FileTree) (path : String) (v : Json) : Prop :=
  ∃ text read, t.readText path = .ok text ∧ Json.parse? text = some read ∧ v = read.normal

/-- **A scenario with its delegation in place**: one that is a text names the file that holds it. -/
inductive Resolves (t : FileTree) (directory : String) (s : Scenario) : Scenario → Prop where
  | named {reference : String} {document : Json} (h : s.delegation = some (.str reference))
      (hdocument : t.HoldsJson (Path.join directory reference) document) :
      Resolves t directory s { s with delegation := some document }
  | plain (h : ∀ reference, s.delegation ≠ some (.str reference)) : Resolves t directory s s

/-- **A file that can be loaded**, and the scenarios in it. -/
def Loads (t : FileTree) (file : String) (scenarios : List Scenario) : Prop :=
  ∃ v read, t.HoldsJson file v ∧ Work.scenariosIn v = .ok read
    ∧ List.Forall₂ (t.Resolves (Work.directoryOf file)) read scenarios

/-- **A file whose definition can be compiled**, and its contract. -/
def Declares (t : FileTree) (path : String) (c : Contract) : Prop :=
  ∃ source, t.readText path = .ok source ∧ Contract.ofSource source = .ok c

end FileTree

namespace Work

variable {w : World}

theorem isReading_parseJson (path text : String) :
    IsReading (parseJson path text : Work (StateM World) Json) := by
  unfold parseJson
  split
  · exact isReading_pure _
  · exact isReading_throw _

theorem answer_parseJson_eq_ok_iff {path text : String} {v : Json} :
    w.answer (parseJson path text) = .ok v ↔ ∃ read, Json.parse? text = some read
      ∧ v = read.normal := by
  unfold parseJson
  cases Json.parse? text with
  | none => exact ⟨fun h => (by cases h), fun ⟨_, h, _⟩ => (by cases h)⟩
  | some read =>
    constructor
    · exact fun h => ⟨read, rfl, (Except.ok.inj h).symm⟩
    · rintro ⟨_, ⟨⟩, rfl⟩
      rfl

theorem answer_readJson_eq_ok_iff {path : String} {v : Json} :
    w.answer (readText path >>= parseJson path) = .ok v ↔ w.tree.HoldsJson path v := by
  rw [(isReading_readText path).answer_bind, andThen_eq_ok_iff]
  simp only [answer_readText_eq_ok_iff, answer_parseJson_eq_ok_iff, FileTree.HoldsJson,
    exists_and_left]

theorem isReading_withDelegation (directory : String) (s : Scenario) :
    IsReading (withDelegation directory s : Work (StateM World) Scenario) := by
  unfold withDelegation
  split
  · exact (isReading_readText _).bind fun _ => (isReading_parseJson _ _).bind fun _ =>
      isReading_pure _
  · exact isReading_pure s

theorem answer_withDelegation_eq_ok_iff {directory : String} {s s' : Scenario} :
    w.answer (withDelegation directory s) = .ok s' ↔ w.tree.Resolves directory s s' := by
  unfold withDelegation
  split
  · next reference hreference =>
    rw [← bind_assoc, ((isReading_readText _).bind fun _ => isReading_parseJson _ _).answer_bind,
      andThen_eq_ok_iff]
    simp only [answer_readJson_eq_ok_iff]
    constructor
    · rintro ⟨document, hdocument, h⟩
      obtain rfl := Except.ok.inj h
      exact .named hreference hdocument
    · intro h
      cases h with
      | named h hdocument =>
        obtain ⟨⟩ := hreference.symm.trans h
        exact ⟨_, hdocument, rfl⟩
      | plain h => exact absurd hreference (h reference)
  · next hplain =>
    constructor
    · intro h
      obtain rfl := Except.ok.inj h
      exact .plain hplain
    · intro h
      cases h with
      | named h => exact absurd h (hplain _)
      | plain => rfl

theorem isReading_loadScenarios (file : String) :
    IsReading (loadScenarios file : Work (StateM World) (List Scenario)) := by
  unfold loadScenarios
  refine (isReading_readText file).bind fun text => (isReading_parseJson file text).bind fun v => ?_
  have hresolve : ∀ read : List Scenario, IsReading
      (read.mapM (withDelegation (directoryOf file)) : Work (StateM World) (List Scenario)) :=
    fun read => .mapM (isReading_withDelegation _)
  dsimp only
  split
  · exact (isReading_pure _).bind hresolve
  · exact (isReading_throw _).bind hresolve

theorem answer_loadScenarios_eq_ok_iff {file : String} {scenarios : List Scenario} :
    w.answer (loadScenarios file) = .ok scenarios ↔ w.tree.Loads file scenarios := by
  unfold loadScenarios FileTree.Loads
  rw [← bind_assoc, ((isReading_readText _).bind fun _ => isReading_parseJson _ _).answer_bind,
    andThen_eq_ok_iff]
  simp only [answer_readJson_eq_ok_iff, exists_and_left]
  refine exists_congr fun v => and_congr_right fun _ => ?_
  cases scenariosIn v with
  | error e => exact ⟨fun h => (by cases h), fun ⟨_, h, _⟩ => (by cases h)⟩
  | ok read =>
    dsimp only
    rw [pure_bind, answer_mapM (isReading_withDelegation _), mapM_eq_ok_iff]
    simp [answer_withDelegation_eq_ok_iff]

/-- A contract that is read is declared by its file. -/
theorem answer_readContract_eq_ok_iff {path : String} {c : Contract} :
    w.answer (readContract path) = .ok c ↔ w.tree.Declares path c := by
  unfold readContract FileTree.Declares
  rw [(isReading_readText path).answer_bind, andThen_eq_ok_iff]
  simp only [answer_readText_eq_ok_iff, answer_orFailureDuring_eq_ok_iff]

/-- A scenario with the contract that its definition declares. -/
def withContract (file : String) (s : Scenario) : Work (StateM World) (Scenario × Contract) :=
  readContract (Path.join (directoryOf file) s.definition) >>= fun c => pure (s, c)

theorem isReading_withContract (file : String) (s : Scenario) : IsReading (withContract file s) :=
  (isReading_readContract _).bind fun _ => isReading_pure _

theorem answer_withContract_eq_ok_iff {file : String} {s : Scenario} {p : Scenario × Contract} :
    w.answer (withContract file s) = .ok p
      ↔ p.1 = s ∧ w.tree.Declares (Path.join (directoryOf file) s.definition) p.2 := by
  rw [withContract, (isReading_readContract _).answer_bind, andThen_eq_ok_iff]
  simp only [answer_readContract_eq_ok_iff]
  constructor
  · rintro ⟨c, hc, h⟩
    obtain rfl := Except.ok.inj h
    exact ⟨rfl, hc⟩
  · rintro ⟨rfl, hc⟩
    exact ⟨p.2, hc, rfl⟩

theorem loadFile_eq (file : String) : (loadFile file : Work (StateM World) _)
    = loadScenarios file >>= fun scenarios => scenarios.mapM (withContract file) :=
  rfl

theorem isReading_loadFile (file : String) :
    IsReading (loadFile file : Work (StateM World) (List (Scenario × Contract))) :=
  (isReading_loadScenarios file).bind fun _ => .mapM (isReading_withContract file)

end Work

/-! ## The cases of a file -/

/-- **The case of a scenario** that is run when a clock has been read `n` times. It has the name and
the expected status of the scenario and all else from the outcome, and it passes if the two
statuses are one. It takes as long as there is between the next two readings. -/
def Scenario.caseAt (clock : Clock) (rules : CallRules) (suite : String) (s : Scenario)
    (c : Contract) (n : Nat) : TestCase :=
  let o := s.runScripts rules c (clock.instant n)
  { suite
    result := .ran
      { name := s.name
        expectedStatus := s.expectedStatus
        actualStatus := o.actualStatus
        passed := o.actualStatus == s.expectedStatus
        findings := o.findings
        error := o.error
        milliseconds := clock.milliseconds (n + 2) - clock.milliseconds (n + 1) } }

/-- **The cases of a file** that is run by itself. -/
def World.casesOf (w : World) (rules : CallRules) (file : String) : List TestCase :=
  ((Work.fileCases rules file : StateM World (List TestCase)).run w).1

/-- **What a file contributes**: a case for each of its scenarios, or a single broken case if it
cannot be loaded or the definition of one of its scenarios cannot be compiled. -/
inductive FileCases (rules : CallRules) (w : World) (file : String) : List TestCase → Prop where
  | ran {scenarios : List Scenario} {cases : List TestCase} (hload : w.tree.Loads file scenarios)
      (h : List.Forall₂ (fun s case => ∃ c n,
        w.tree.Declares (Path.join (Work.directoryOf file) s.definition) c
          ∧ case = s.caseAt w.time rules (Path.stem file) c n) scenarios cases) :
      FileCases rules w file cases
  | notLoaded (h : ∀ scenarios, ¬ w.tree.Loads file scenarios) (message : String) :
      FileCases rules w file [⟨Path.stem file, .broken file message⟩]
  | notCompiled {scenarios : List Scenario} (hload : w.tree.Loads file scenarios) {s : Scenario}
      (hs : s ∈ scenarios)
      (h : ∀ c, ¬ w.tree.Declares (Path.join (Work.directoryOf file) s.definition) c)
      (message : String) : FileCases rules w file [⟨Path.stem file, .broken file message⟩]

/-! ## The same at other times -/

/-- **Cases that are the same but for the time**: a broken case is the same at any time, and one
scenario with one contract has a case at each reading of the clock. -/
inductive SameButTime (rules : CallRules) (clock : Clock) : TestCase → TestCase → Prop where
  | broken (suite name message : String) :
      SameButTime rules clock ⟨suite, .broken name message⟩ ⟨suite, .broken name message⟩
  | ran (suite : String) (s : Scenario) (c : Contract) (n k : Nat) :
      SameButTime rules clock (s.caseAt clock rules suite c n) (s.caseAt clock rules suite c k)

/-- A clock whose times are all written as timestamps. -/
def Clock.Legible (clock : Clock) : Prop :=
  ∀ n, isTimestamp (.str (clock.instant n).textInDigits) = true

/-- A case without the time it took. -/
def TestCase.untimed (case : TestCase) : TestCase :=
  match case.result with
  | .ran r => { case with result := .ran { r with milliseconds := 0 } }
  | .broken _ _ => case

namespace SameButTime

variable {rules : CallRules} {clock : Clock} {a b : TestCase}

/-- **Only how long it takes can differ**, if the times are timestamps. -/
theorem untimed_eq (h : SameButTime rules clock a b) (hclock : clock.Legible) :
    a.untimed = b.untimed := by
  cases h with
  | broken => rfl
  | ran suite s c n k =>
    have hrun := s.runScripts_eq_of_timestamps rules c (hclock n) (hclock k)
    rw [Scenario.caseAt, Scenario.caseAt, hrun]
    rfl

/-- On a clock that stands still there is no difference. -/
theorem eq_of_still {i : Instant} (h : SameButTime rules (.still i) a b) : a = b := by
  cases h <;> rfl

end SameButTime

theorem Clock.after_after (clock : Clock) (n k : Nat) :
    (clock.after n).after k = clock.after (n + k) := by
  simp only [Clock.after, Nat.add_assoc]

/-- A world as it is when the clock has been read some times more. -/
def World.later (w : World) (n : Nat) : World :=
  { w with time := w.time.after n }

theorem World.later_zero (w : World) : w.later 0 = w := by
  simp only [World.later, Clock.after, Nat.zero_add]

/-- The cases of scenarios that are run one after the other, each of which reads the clock three
times. -/
def casesFrom (clock : Clock) (rules : CallRules) (suite : String) :
    Nat → List (Scenario × Contract) → List TestCase
  | _, [] => []
  | n, p :: rest => p.1.caseAt clock rules suite p.2 n :: casesFrom clock rules suite (n + 3) rest

theorem sameButTime_casesFrom (clock : Clock) (rules : CallRules) (suite : String) (n k : Nat)
    (loaded : List (Scenario × Contract)) :
    List.Forall₂ (SameButTime rules clock) (casesFrom clock rules suite n loaded)
      (casesFrom clock rules suite k loaded) := by
  induction loaded generalizing n k with
  | nil => exact .nil
  | cons p rest ih => exact .cons (.ran suite p.1 p.2 n k) (ih (n + 3) (k + 3))

/-- Each of the cases is that of its scenario at some reading. -/
theorem forall₂_casesFrom {P : Scenario → Contract → Prop} {scenarios : List Scenario}
    {loaded : List (Scenario × Contract)}
    (h : List.Forall₂ (fun s p => p.1 = s ∧ P s p.2) scenarios loaded) (clock : Clock)
    (rules : CallRules) (suite : String) (n : Nat) :
    List.Forall₂ (fun s case => ∃ c k, P s c ∧ case = s.caseAt clock rules suite c k) scenarios
      (casesFrom clock rules suite n loaded) := by
  induction h generalizing n with
  | nil => exact .nil
  | @cons s p _ _ hp _ ih =>
    obtain ⟨rfl, hc⟩ := hp
    exact .cons ⟨p.2, n, hc, rfl⟩ (ih (n + 3))

namespace Work

variable {w : World}

/-- A scenario is run at one reading of the clock, and timed by two more. -/
theorem run_runCase (rules : CallRules) (suite : String) (s : Scenario) (c : Contract) (w : World)
    (n : Nat) : (runCase rules suite s c : StateM World TestCase).run (w.later n)
      = (s.caseAt w.time rules suite c n, w.later (n + 3)) := by
  have hrun : (runCase rules suite s c : StateM World TestCase).run (w.later n)
      = (caseOf suite (s.runScripts rules c (w.time.instant n))
          (w.time.milliseconds (n + 2) - w.time.milliseconds (n + 1)),
        { w with time := (((w.time.after n).after 1).after 1).after 1 }) := rfl
  obtain ⟨hname, hexpected⟩ := s.heading_runScripts rules c (w.time.instant n)
  rw [hrun, caseOf, Outcome.passed, hname, hexpected]
  simp only [Clock.after_after]
  rfl

/-- Actions on several items, from that on the first and those on the others. -/
theorem run_mapM_cons {α β : Type} {f : α → StateM World β} {x : α} {xs : List α} {b : β}
    {bs : List β} {w w' w'' : World} (hx : (f x).run w = (b, w'))
    (hxs : (xs.mapM f).run w' = (bs, w'')) : ((x :: xs).mapM f).run w = (b :: bs, w'') := by
  rw [List.mapM_cons, StateT.run_bind, hx]
  show (xs.mapM f >>= fun bs => pure (b :: bs) : StateM World (List β)).run w' = _
  rw [StateT.run_bind, hxs]
  rfl

theorem run_runCases (rules : CallRules) (suite : String) (loaded : List (Scenario × Contract))
    (w : World) (n : Nat) :
    (loaded.mapM fun p => runCase rules suite p.1 p.2 : StateM World (List TestCase)).run
        (w.later n)
      = (casesFrom w.time rules suite n loaded, w.later (n + 3 * loaded.length)) := by
  induction loaded generalizing n with
  | nil => rfl
  | cons p rest ih =>
    have hlength : n + 3 * (p :: rest).length = n + 3 + 3 * rest.length := by
      rw [List.length_cons]
      omega
    rw [hlength]
    exact run_mapM_cons (run_runCase rules suite p.1 p.2 w n) (ih (n + 3))

/-- **A file is loaded from the world as it was**, and its scenarios are run when they come. -/
theorem run_fileCases (rules : CallRules) (file : String) (w : World) (n : Nat) :
    (fileCases rules file : StateM World (List TestCase)).run (w.later n)
      = match w.answer (loadFile file) with
        | .error complaint => ([⟨Path.stem file, .broken file complaint.text⟩], w.later n)
        | .ok loaded => (casesFrom w.time rules (Path.stem file) n loaded,
            w.later (n + 3 * loaded.length)) := by
  have hload : (loadFile file : Work (StateM World) _).run.run (w.later n)
      = (w.answer (loadFile file), w.later n) :=
    isReading_loadFile file (w.later n) w rfl
  rw [fileCases, StateT.run_bind, hload]
  cases w.answer (loadFile file) with
  | error complaint => rfl
  | ok loaded => exact run_runCases rules (Path.stem file) loaded w n

theorem casesOf_eq (rules : CallRules) (file : String) (w : World) :
    w.casesOf rules file = match w.answer (loadFile file) with
      | .error complaint => [⟨Path.stem file, .broken file complaint.text⟩]
      | .ok loaded => casesFrom w.time rules (Path.stem file) 0 loaded := by
  have hrun := run_fileCases rules file w 0
  rw [World.later_zero] at hrun
  rw [World.casesOf, hrun]
  cases w.answer (loadFile file) <;> rfl

/-- **A file contributes the same at any time**, but for the times. -/
theorem exists_run_fileCases (rules : CallRules) (file : String) (w : World) (n : Nat) :
    ∃ cases m, (fileCases rules file : StateM World (List TestCase)).run (w.later n)
        = (cases, w.later m)
      ∧ List.Forall₂ (SameButTime rules w.time) cases (w.casesOf rules file) := by
  rw [run_fileCases, casesOf_eq]
  cases w.answer (loadFile file) with
  | error complaint => exact ⟨_, n, rfl, .cons (.broken _ _ _) .nil⟩
  | ok loaded => exact ⟨_, _, rfl, sameButTime_casesFrom _ _ _ n 0 loaded⟩

/-- **A file by itself contributes what it should.** -/
theorem fileCases_casesOf (rules : CallRules) (w : World) (file : String) :
    FileCases rules w file (w.casesOf rules file) := by
  rw [casesOf_eq, loadFile_eq, (isReading_loadScenarios file).answer_bind]
  cases hload : w.answer (loadScenarios file) with
  | error complaint =>
    refine .notLoaded (fun scenarios h => ?_) _
    rw [answer_loadScenarios_eq_ok_iff.mpr h] at hload
    cases hload
  | ok scenarios =>
    rw [answer_loadScenarios_eq_ok_iff] at hload
    show FileCases rules w file (match w.answer (scenarios.mapM (withContract file)) with
      | .error complaint => _
      | .ok loaded => _)
    rw [answer_mapM (isReading_withContract file)]
    cases hloaded : scenarios.mapM fun s => w.answer (withContract file s) with
    | error complaint =>
      obtain ⟨s, hs, hfail⟩ := exists_error_of_mapM hloaded
      refine .notCompiled hload hs (fun c hc => ?_) _
      have hok := (answer_withContract_eq_ok_iff (p := (s, c))).mpr ⟨rfl, hc⟩
      rw [hok] at hfail
      cases hfail
    | ok loaded =>
      have hcontracts : List.Forall₂ (fun (s : Scenario) (p : Scenario × Contract) => p.1 = s
          ∧ w.tree.Declares (Path.join (directoryOf file) s.definition) p.2) scenarios loaded :=
        (mapM_eq_ok_iff.mp hloaded).imp fun _ _ hp => answer_withContract_eq_ok_iff.mp hp
      exact .ran hload (forall₂_casesFrom hcontracts w.time rules (Path.stem file) 0)

/-! ## Running the files -/

theorem isReading_filesIn (depth : Nat) (directory : String) :
    IsReading (filesIn depth directory : Work (StateM World) (List String)) := by
  induction depth generalizing directory with
  | zero => exact isReading_throw _
  | succ depth ih =>
    refine (isReading_ask (·.childNames directory)).bind fun names =>
      (isReading_orFault _ _).bind fun names =>
        IsReading.bind (.mapM fun name => ?_) fun _ => isReading_pure _
    refine (isReading_ask (·.isDirectory (Path.join directory name))).bind fun isDirectory => ?_
    split
    · exact ih _
    · split
      · exact isReading_pure _
      · exact isReading_pure _

/-- The scenario files at a single path. -/
def filesAt (path : String) : Work (StateM World) (List String) := do
  if ← (Host.isDirectory path : StateM World Bool) then filesIn maxDepth path
  else if ← (Host.isFile path : StateM World Bool) then return [path]
  else throw ⟨["no such file or directory: " ++ path]⟩

theorem isReading_filesAt (path : String) : IsReading (filesAt path) := by
  refine (isReading_ask (·.isDirectory path)).bind fun isDirectory => ?_
  split
  · exact isReading_filesIn _ _
  · refine (isReading_ask (·.isFile path)).bind fun isFile => ?_
    split
    · exact isReading_pure _
    · exact isReading_throw _

theorem scenarioFiles_eq (paths : List String) : (scenarioFiles paths : Work (StateM World) _)
    = paths.mapM filesAt >>= fun found => pure found.flatten :=
  rfl

theorem isReading_scenarioFiles (paths : List String) :
    IsReading (scenarioFiles paths : Work (StateM World) (List String)) :=
  IsReading.bind (.mapM isReading_filesAt) fun _ => isReading_pure _

/-- Files that are named themselves are the files that are found. -/
theorem answer_scenarioFiles {files : List String} {w : World}
    (h : ∀ file ∈ files, w.tree.isFile file = true) :
    w.answer (scenarioFiles files) = .ok files := by
  have hfile : ∀ file ∈ files, w.answer (filesAt file) = .ok [file] := by
    intro file hmem
    have hfile := h file hmem
    have hplain : w.tree.isDirectory file = false := by
      unfold FileTree.isFile at hfile
      unfold FileTree.isDirectory
      split at hfile
      · next heq => rw [heq]
      · cases hfile
    have hask : w.answer (filesAt file) = w.answer (if w.tree.isDirectory file = true
        then filesIn maxDepth file
        else (Host.isFile file : StateM World Bool) >>= fun isFile =>
          if isFile = true then pure [file]
          else throw ⟨["no such file or directory: " ++ file]⟩) := rfl
    rw [hask, hplain]
    show w.answer (if w.tree.isFile file = true then pure [file] else throw _) = _
    rw [hfile]
    rfl
  have hfound : files.mapM (fun file => w.answer (filesAt file)) = .ok (files.map ([·])) := by
    rw [mapM_eq_ok_iff, List.forall₂_map_right_iff, List.forall₂_same]
    exact hfile
  rw [scenarioFiles_eq, (IsReading.mapM isReading_filesAt).answer_bind,
    answer_mapM isReading_filesAt, hfound]
  show Except.ok (files.map ([·])).flatten = Except.ok files
  rw [← List.flatMap_def, List.flatMap_singleton']

/-- **Files that are run one after the other** contribute what each does by itself. -/
theorem exists_run_files (rules : CallRules) (files : List String) (w : World) (n : Nat) :
    ∃ found m, (files.mapM (fileCases rules) : StateM World (List (List TestCase))).run (w.later n)
        = (found, w.later m)
      ∧ List.Forall₂ (SameButTime rules w.time) found.flatten
          (files.flatMap (w.casesOf rules)) := by
  induction files generalizing n with
  | nil => exact ⟨[], n, rfl, .nil⟩
  | cons file files ih =>
    obtain ⟨cases, k, hfile, hcases⟩ := exists_run_fileCases rules file w n
    obtain ⟨found, m, hfiles, hfound⟩ := ih k
    refine ⟨cases :: found, m, run_mapM_cons hfile hfiles, ?_⟩
    rw [List.flatten_cons, List.flatMap_cons]
    exact List.rel_append hcases hfound

/-- What comes behind the printed lines: the report, if there is to be one, and the status. -/
def conclude (report : Option String) (cases : List TestCase) : Work (StateM World) Nat :=
  match report with
  | some path => writeText path (TestReport.xml cases) >>= fun _ =>
    pure (if TestReport.notPassed cases = 0 then 0 else 1)
  | none => pure (if TestReport.notPassed cases = 0 then 0 else 1)

/-- What is printed about some cases. -/
def reportLines (quiet : Bool) (cases : List TestCase) : List String :=
  cases.flatMap (caseLines quiet) ++ [TestReport.summary cases]

/-- **What a test run does once it has its files**: it complains about its rules, or it runs the
files and prints what they contribute. -/
theorem perform_testPaths {config : Config} {quiet : Bool} {paths files : List String}
    {report : Option String} {w : World} (hfiles : w.answer (scenarioFiles paths) = .ok files)
    (hne : files ≠ []) :
    (∃ complaint, w.answer (callRules config) = .error complaint
      ∧ w.perform (testPaths config quiet paths report) = (.error complaint, w))
    ∨ ∃ rules cases n, w.answer (callRules config) = .ok rules
      ∧ List.Forall₂ (SameButTime rules w.time) cases (files.flatMap (w.casesOf rules))
      ∧ w.perform (testPaths config quiet paths report) = World.perform
        { w.later n with output := w.output ++ printed (reportLines quiet cases) }
        (conclude report cases) := by
  rw [testPaths, (isReading_scenarioFiles paths).perform_bind, hfiles]
  dsimp only
  rw [if_neg (by simpa using hne), (isReading_callRules config).perform_bind]
  cases w.answer (callRules config) with
  | error complaint => exact .inl ⟨complaint, rfl, rfl⟩
  | ok rules =>
    obtain ⟨found, n, hrun, hfound⟩ := exists_run_files rules files w 0
    rw [World.later_zero] at hrun
    have hcases : w.perform (liftM (files.mapM (fileCases rules) : StateM World _)
        : Work (StateM World) _) = (.ok found, w.later n) :=
      congrArg (fun r : List (List TestCase) × World => (Except.ok r.1, r.2)) hrun
    refine .inr ⟨rules, found.flatten, n, rfl, hfound, ?_⟩
    dsimp only
    rw [World.perform_bind, hcases]
    dsimp only
    rw [World.perform_bind, perform_printLines]
    rfl

end Work

/-- **How a test run ends**: its status is zero exactly if every case ran and passed, and the tree
is as it was but for the report. A report that cannot be written is complained about. -/
inductive Concluded (cases : List TestCase) (t : FileTree) :
    Option String → Except Complaint Nat → FileTree → Prop where
  | unreported {outcome : Except Complaint Nat}
      (h : exitStatus outcome = 0 ↔ ∀ c ∈ cases, ∃ r, c.result = .ran r ∧ r.passed = true) :
      Concluded cases t none outcome t
  | reported {path : String} {outcome : Except Complaint Nat} {t' : FileTree}
      (h : exitStatus outcome = 0 ↔ ∀ c ∈ cases, ∃ r, c.result = .ran r ∧ r.passed = true)
      (hwrite : t.writeText path (TestReport.xml cases) = .ok t') :
      Concluded cases t (some path) outcome t'
  | refused {path : String} {fault : FileFault}
      (hwrite : t.writeText path (TestReport.xml cases) = .error fault) :
      Concluded cases t (some path) (.error ⟨["writing " ++ path, fault.text]⟩) t

namespace Work

theorem perform_conclude (w : World) (report : Option String) (cases : List TestCase) :
    (w.after (conclude report cases)).output = w.output
      ∧ Concluded cases w.tree report (w.answer (conclude report cases))
        (w.after (conclude report cases)).tree := by
  have hstatus : exitStatus (.ok (if TestReport.notPassed cases = 0 then 0 else 1)) = 0
      ↔ ∀ c ∈ cases, ∃ r, c.result = .ran r ∧ r.passed = true := by
    rw [← TestReport.notPassed_eq_zero_iff, exitStatus]
    split <;> simp [*]
  cases report with
  | none => exact ⟨rfl, .unreported hstatus⟩
  | some path =>
    rw [World.answer, World.after, conclude, World.perform_bind, perform_writeText]
    cases hwrite : w.tree.writeText path (TestReport.xml cases) with
    | error fault => exact ⟨rfl, .refused hwrite⟩
    | ok tree => exact ⟨rfl, .reported hstatus hwrite⟩

end Work

namespace Invocation

variable {call : Invocation} {paths : List String} {report : Option String} {w : World}

/-- What a call does that tests some files: it complains about its configuration, or it runs the
files. -/
theorem perform_of_test {files : List String} (hcommand : call.command = .test paths report)
    (hfiles : w.answer (Work.scenarioFiles paths) = .ok files) (hne : files ≠ []) :
    (∃ complaint, w.answer (Work.loadConfig call.config >>= Work.callRules) = .error complaint
      ∧ w.perform call.run = (.error complaint, w))
    ∨ ∃ rules cases n, w.answer (Work.loadConfig call.config >>= Work.callRules) = .ok rules
      ∧ List.Forall₂ (SameButTime rules w.time) cases (files.flatMap (w.casesOf rules))
      ∧ w.perform call.run = World.perform
        { w.later n with output := w.output ++ Work.printed (Work.reportLines call.quiet cases) }
        (Work.conclude report cases) := by
  have hrun : (call.run : Work (StateM World) Nat) = Work.loadConfig call.config >>= fun config =>
      Work.testPaths config call.quiet paths report := by
    rw [run, hcommand]
    rfl
  rw [hrun, (Work.isReading_loadConfig call.config).perform_bind,
    (Work.isReading_loadConfig call.config).answer_bind]
  cases w.answer (Work.loadConfig call.config) with
  | error complaint => exact .inl ⟨complaint, rfl, rfl⟩
  | ok config => exact Work.perform_testPaths hfiles hne

/-- **Scenario files do not depend on each other, and are counted consistently.** A run complains
about its configuration and does nothing, or it reports the cases of some files followed by those
of the others. What a file contributes is the same in every run but for the times, and if the clock
shows timestamps, but for how long a case takes. The summary agrees with the counts in the header of
the report, and the status is zero exactly if every case ran and passed. -/
theorem test_independent {call : Invocation} {paths fs gs : List String}
    {report : Option String} {w : World} (hcommand : call.command = .test paths report)
    (hfiles : w.answer (Work.scenarioFiles paths) = .ok (fs ++ gs)) (hne : fs ++ gs ≠ []) :
    (∃ complaint, w.answer (Work.loadConfig call.config >>= Work.callRules) = .error complaint
      ∧ w.perform call.run = (.error complaint, w))
    ∨ ∃ rules cases, w.answer (Work.loadConfig call.config >>= Work.callRules) = .ok rules
      ∧ (∀ file, FileCases rules w file (w.casesOf rules file))
      ∧ List.Forall₂ (SameButTime rules w.time) cases
        (fs.flatMap (w.casesOf rules) ++ gs.flatMap (w.casesOf rules))
      ∧ (w.time.Legible → cases.map TestCase.untimed
        = (fs.flatMap (w.casesOf rules) ++ gs.flatMap (w.casesOf rules)).map TestCase.untimed)
      ∧ (w.after call.run).output = w.output ++ Work.printed
        (cases.flatMap (Work.caseLines call.quiet)
          ++ [Text.natText (cases.length - TestReport.failures cases - TestReport.errors cases)
            ++ " passed, " ++ Text.natText (TestReport.failures cases + TestReport.errors cases)
            ++ " failed"])
      ∧ TestReport.HasHeader (TestReport.xml cases) cases.length (TestReport.failures cases)
        (TestReport.errors cases)
      ∧ TestReport.failures cases + TestReport.errors cases ≤ cases.length
      ∧ Concluded cases w.tree report (w.answer call.run) (w.after call.run).tree := by
  rcases perform_of_test hcommand hfiles hne with
    hcomplaint | ⟨rules, cases, n, hrules, hcases, hperform⟩
  · exact .inl hcomplaint
  rw [List.flatMap_append] at hcases
  have huntimed : w.time.Legible → cases.map TestCase.untimed
      = (fs.flatMap (w.casesOf rules) ++ gs.flatMap (w.casesOf rules)).map TestCase.untimed := by
    intro hclock
    rw [← List.forall₂_eq_eq_eq, List.forall₂_map_left_iff, List.forall₂_map_right_iff]
    exact hcases.imp fun _ _ h => h.untimed_eq hclock
  have hanswer : w.answer call.run = World.answer _ (Work.conclude report cases) :=
    congrArg Prod.fst hperform
  have hafter : w.after call.run = World.after _ (Work.conclude report cases) :=
    congrArg Prod.snd hperform
  have hle : TestReport.failures cases + TestReport.errors cases ≤ cases.length := by
    rw [TestReport.length_eq cases]
    omega
  obtain ⟨houtput, hconcluded⟩ := Work.perform_conclude
    { w.later n with output := w.output ++ Work.printed (Work.reportLines call.quiet cases) }
    report cases
  refine .inr ⟨rules, cases, hrules, Work.fileCases_casesOf rules w, hcases, huntimed, ?_,
    TestReport.hasHeader_xml cases, hle, ?_⟩
  · rw [hafter, houtput, Work.reportLines, TestReport.summary_eq]
  · rw [hanswer, hafter]
    exact hconcluded

/-- A file with a scenario that passes, and one that is broken. -/
theorem test_independent_mixed :
    let w : World := ⟨.ofFiles [("d.idl", "interface S \x7b [Intent=\"go\"] void f(); \x7d;"),
      ("a.json", "\x7b\"name\":\"s\",\"definition\":\"d.idl\",\"operation\":\"f\","
        ++ "\"expectedStatus\":\"error\"\x7d"), ("b.json", "oops")], "", .epoch⟩
    ∃ (call : Invocation) (rules : CallRules) (cases : List TestCase),
      Arguments.parse ["test", "a.json", "b.json"] = .ok call
      ∧ FileCases rules w "a.json" (w.casesOf rules "a.json")
      ∧ FileCases rules w "b.json" (w.casesOf rules "b.json")
      ∧ cases = w.casesOf rules "a.json" ++ w.casesOf rules "b.json"
      ∧ Concluded cases w.tree none (w.answer call.run) (w.after call.run).tree
      ∧ exitStatus (w.answer call.run) = 1 := by
  intro w
  let call : Invocation := ⟨none, false, .test ["a.json", "b.json"] none⟩
  have hcall : Arguments.parse ["test", "a.json", "b.json"] = .ok call := by
    with_unfolding_all rfl
  have hstatus : exitStatus (w.answer call.run) = 1 := by decide +kernel
  have hcommand : call.command = .test ["a.json", "b.json"] none := rfl
  have hfound : w.answer (Work.scenarioFiles ["a.json", "b.json"])
      = .ok (["a.json"] ++ ["b.json"]) :=
    Work.answer_scenarioFiles (by decide +kernel)
  rcases test_independent hcommand hfound (by decide) with
    ⟨complaint, -, hperform⟩ | ⟨rules, cases, -, hfile, hcases, -, -, -, -, hconcluded⟩
  · rw [World.answer, hperform] at hstatus
    cases hstatus
  · have hsame : List.Forall₂ Eq cases _ := hcases.imp fun _ _ => SameButTime.eq_of_still
    rw [List.forall₂_eq_eq_eq] at hsame
    exact ⟨call, rules, cases, hcall, hfile _, hfile _, by simpa using hsame, hconcluded, hstatus⟩

end Invocation

end IntentContract
