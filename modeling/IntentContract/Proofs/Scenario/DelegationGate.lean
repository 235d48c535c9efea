import IntentContract.Config
import IntentContract.Proofs.Files.World
import IntentContract.Scenario.Run

/-!
# A call is not made under a delegation with an error

Before a scenario's call is made, its delegation is checked, and what the check finds decides
whether there is a target at all. A run that is refused is a plain value: it comes out the same
in every monad and for every way to set up the target, so no handler is bound or called on the
way (`run_of_refusal`).

That a revoked delegation is refused does not depend on how rules are configured. Rule files
state a kind of document, and only the rules for delegations look at revocation; but rules that
were asked for as those of a kind have that kind, whatever their file states
(`kind_of_documentRules`). No other rule can make up for an error, so the finding about the
revocation alone keeps the call from being made.
-/

namespace IntentContract

/-! ## Rules that are loaded -/

/-- Rules are loaded from a file that can be read and holds some. -/
theorem World.answer_loadDocumentRules {w : World} {kind : DocumentKind} {path text : String}
    {rules : DocumentRules} (hread : w.tree.readText path = .ok text)
    (hdecode : Config.decodeRules DocumentRules.reader path text = .ok rules) :
    w.answer (Config.loadDocumentRules kind path) = .ok { rules with kind } := by
  have hfile : w.perform (Config.readFile path) = (.ok text, w) := by
    have hhost : w.perform (liftM (Host.readText path : StateM World (Except FileFault String))
        : ExceptT Failure (StateM World) _) = (.ok (.ok text), w) := by
      rw [← hread]
      rfl
    rw [Config.readFile, World.perform_bind, hhost]
    rfl
  have hrules : w.perform (Config.loadRules DocumentRules.reader path) = (.ok rules, w) := by
    rw [Config.loadRules, World.perform_bind, hfile]
    dsimp only
    rw [hdecode]
    rfl
  rw [World.answer, Config.loadDocumentRules, World.perform_bind, hrules]
  rfl

/-- **Rules that are loaded for a kind of document have that kind**, whatever their file states. -/
theorem kind_of_documentRules {w : World} {config : Config} {kind : DocumentKind}
    {file : Option String} {rules : DocumentRules}
    (h : w.answer (config.documentRules kind file) = .ok rules) : rules.kind = kind := by
  have hloaded : ∀ path, w.answer (Config.loadDocumentRules kind path) = .ok rules →
      rules.kind = kind := by
    intro path h
    obtain ⟨read, w', hread⟩ := World.exists_answer_of_bind h
    obtain rfl : { read with kind } = rules := Except.ok.inj hread
    rfl
  unfold Config.documentRules at h
  split at h
  · exact hloaded _ h
  · exact hloaded _ h
  · obtain rfl : DocumentRules.usual kind = rules := Except.ok.inj h
    cases kind <;> rfl

/-! ## What a check finds -/

/-- A report is not valid exactly if one of its findings is an error. -/
theorem Report.isValid_eq_false_iff {r : Report} :
    r.isValid = false ↔ ∃ f ∈ r.findings, f.severity = .error := by
  simp [Report.isValid]

/-- A document that says it is revoked has a finding about that, by rules for delegations. -/
theorem DocumentRules.revoked_mem_findings {rules : DocumentRules} {fields : List (String × Json)}
    (hkind : rules.kind = .delegation) (h : Keyed.get? "revoked" fields = some (.bool true)) :
    .error .revokedDelegation "revoked" "delegation has been revoked" ∈ rules.findings fields := by
  have hrevoked : DocumentRules.isRevoked fields = true := by rw [isRevoked, h]
  refine List.mem_append_right _ ?_
  simp [checkRevocation, hkind, hrevoked]

/-! ## The gate -/

namespace Scenario

variable {rules : CallRules} {s : Scenario}

/-- **A run that is refused does nothing**: it is a plain value, in every monad and for every
way to set up the target. -/
theorem run_of_refusal {o : Outcome} (h : s.refusal? rules = some o) {m : Type → Type} [Monad m]
    (c : Contract) (now : Instant) (install : Agent m → m (Agent m)) :
    s.run rules c now install = pure o := by
  rw [run, h]

/-- What is refused has no answer. -/
theorem exists_unanswered_of_refusal {o : Outcome} (h : s.refusal? rules = some o) :
    ∃ status findings error, o = s.unanswered status findings error := by
  unfold refusal? at h
  split at h
  · cases h
  · split at h
    · exact ⟨_, _, _, (Option.some.inj h).symm⟩
    · split at h
      · cases h
      · exact ⟨_, _, _, (Option.some.inj h).symm⟩

/-- A delegation with an error is refused, with all that was found. -/
theorem refusal?_of_error {document : Json} {report : Report} (hdoc : s.delegation = some document)
    (hcheck : rules.delegation.check document = .ok report)
    (herror : ∃ f ∈ report.findings, f.severity = .error) :
    s.refusal? rules = some (s.unanswered rejectedStatus report.findings none) := by
  simp [refusal?, hdoc, hcheck, Report.isValid_eq_false_iff.mpr herror]

/-- A rejected scenario passes if that is what it expects. -/
theorem passed_unanswered_iff {status : String} {findings : List Finding} {error : Option String} :
    (s.unanswered status findings error).passed = true ↔ s.expectedStatus = status := by
  rw [Outcome.passed, beq_iff_eq]
  exact eq_comm

/-- **A run that is rejected at the gate**: in every monad and for every way to set up the
target it is the same plain value, an outcome with the given findings and no answer, which
passes exactly if a rejection was expected. -/
def RejectedAtGate (rules : CallRules) (s : Scenario) (c : Contract) (now : Instant)
    (findings : List Finding) : Prop :=
  ∃ o : Outcome,
    (∀ {m : Type → Type} [Monad m] (install : Agent m → m (Agent m)),
      s.run rules c now install = pure o)
    ∧ o.actualStatus = rejectedStatus ∧ o.result = none ∧ o.error = none
    ∧ o.findings = findings ∧ (o.passed = true ↔ s.expectedStatus = rejectedStatus)

theorem rejectedAtGate_of_error {document : Json} {report : Report}
    (hdoc : s.delegation = some document) (hcheck : rules.delegation.check document = .ok report)
    (herror : ∃ f ∈ report.findings, f.severity = .error) (c : Contract) (now : Instant) :
    RejectedAtGate rules s c now report.findings :=
  ⟨_, run_of_refusal (refusal?_of_error hdoc hcheck herror) c now, rfl, rfl, rfl, rfl,
    passed_unanswered_iff⟩

/-- **No call is made under a bad delegation.** Let rules for delegations be loaded by some
configuration from the files of some world, and a scenario come with an object as its
delegation. If that is revoked, or if its report has an error, the run is rejected at the gate
with the findings of the report, the revocation among them. The rules for execution records
have no part in it. -/
theorem run_under_bad_delegation {w : World} {config : Config} {file : Option String}
    {delegation : DocumentRules}
    (hrules : w.answer (config.documentRules .delegation file) = .ok delegation)
    {s : Scenario} {fields : List (String × Json)} (hdoc : s.delegation = some (.obj fields))
    (execution : DocumentRules) (c : Contract) (now : Instant) :
    (Keyed.get? "revoked" fields = some (.bool true) → ∃ findings,
      RejectedAtGate ⟨delegation, execution⟩ s c now findings
        ∧ ∃ f ∈ findings, f.severity = .error ∧ f.kind = .revokedDelegation)
    ∧ ∀ report, delegation.check (.obj fields) = .ok report →
        (∃ f ∈ report.findings, f.severity = .error) →
        RejectedAtGate ⟨delegation, execution⟩ s c now report.findings := by
  have hgate : ∀ report, delegation.check (.obj fields) = .ok report →
      (∃ f ∈ report.findings, f.severity = .error) →
      RejectedAtGate ⟨delegation, execution⟩ s c now report.findings :=
    fun report hcheck herror => rejectedAtGate_of_error hdoc hcheck herror c now
  refine ⟨fun hrevoked => ?_, hgate⟩
  have hmem := DocumentRules.revoked_mem_findings (kind_of_documentRules hrules) hrevoked
  exact ⟨_, hgate ⟨delegation.findings fields⟩ rfl ⟨_, hmem, rfl⟩, _, hmem, rfl, rfl⟩

set_option maxRecDepth 1024 in
/-- A file with rules that ask for nothing and that it calls those of execution records still
keeps a call from being made under a revoked delegation. -/
theorem run_under_bad_delegation_misnamed :
    ∃ (w : World) (config : Config) (delegation : DocumentRules) (s : Scenario),
      w.tree.entries = [(["d.json"], .file "\x7b\"kind\":\"execution-record\"\x7d")]
      ∧ config.rules.delegation = some "d.json"
      ∧ w.answer (config.documentRules .delegation none) = .ok delegation
      ∧ s.delegation = some (.obj [("revoked", .bool true)])
      ∧ ∃ findings, RejectedAtGate ⟨delegation, .execution⟩ s (.empty "Market") .epoch findings
          ∧ ∃ f ∈ findings, f.severity = .error ∧ f.kind = .revokedDelegation := by
  let w : World := ⟨⟨[(["d.json"], .file "\x7b\"kind\":\"execution-record\"\x7d")]⟩, "", .epoch⟩
  let config : Config := { Config.empty with rules := ⟨none, some "d.json", none⟩ }
  let s : Scenario := ⟨"revoked", "market.webidl", "buy", .null,
    some (.obj [("revoked", .bool true)]), "accepted", "Buyer", "Seller", []⟩
  have hread : w.tree.readText "d.json" = .ok "\x7b\"kind\":\"execution-record\"\x7d" := by
    with_unfolding_all rfl
  have hdecode : Config.decodeRules DocumentRules.reader "d.json"
      "\x7b\"kind\":\"execution-record\"\x7d" = .ok ⟨.execution, [], [], none, []⟩ := by
    with_unfolding_all rfl
  have hrules : w.answer (config.documentRules .delegation none)
      = .ok ⟨.delegation, [], [], none, []⟩ :=
    World.answer_loadDocumentRules hread hdecode
  exact ⟨w, config, _, s, rfl, rfl, hrules, rfl,
    (run_under_bad_delegation hrules rfl .execution (.empty "Market") .epoch).1 rfl⟩

end Scenario

end IntentContract
