import IntentContract.Proofs.Scenario.Record
import Mathlib

/-!
# What is found in an execution record

A call that comes back is written up as an execution record, and the record is checked like any
other document. Most of it is put there by the run itself: who called whom, by which intent and at
what time. These fields are always there, as texts, even if a text is empty. Only a proof and an
attestation come from the answer, each under its own name and whether or not the other is there.

So the check can only find fault with these two, and what it finds can be told from the answer
alone (`Attachment.Defect`), whatever the answer is: an array or a text has no fields and nothing
is attached.

Handlers work in a monad of their own. What is said of a run is said of all its outcomes, by
`SatisfiesM`, in every lawful monad. No part of Mathlib has this predicate, only the whole.
-/

namespace IntentContract

open DocumentRules (Has Lacks missingText)

/-! ## Attachments -/

namespace Attachment

/-- **An attachment in order**: there is none, or it is `null`, or it is an object with a type that
is not `null`. -/
def Sound (answer : Json) (name : String) : Prop :=
  answer.get? name = none ∨ answer.get? name = some .null
    ∨ ∃ fields type, answer.get? name = some (.obj fields)
      ∧ Keyed.get? "type" fields = some type ∧ type ≠ .null

/-- **What can be wrong with an attachment**, and the finding that this is worth: it is no object,
or an object without a type. -/
inductive Defect (answer : Json) (name : String) : Finding → Prop where
  | notObject {v : Json} (hv : answer.get? name = some v) (hnull : v ≠ .null)
      (hobject : ∀ fields, v ≠ .obj fields) :
      Defect answer name (.error .invalidProofType name
        ("'" ++ name ++ "' must be an object, found " ++ v.kindName))
  | untyped {fields : List (String × Json)} (hv : answer.get? name = some (.obj fields))
      (htype : Lacks fields "type") :
      Defect answer name
        (.error .missingField (name ++ ".type") (missingText (name ++ ".type")))

variable {answer : Json} {name : String}

theorem sound_iff : Sound answer name ↔ ∀ f, ¬ Defect answer name f := by
  constructor
  · rintro hsound f (⟨hv, hnull, hobject⟩ | ⟨hv, htype⟩)
    · rcases hsound with h | h | ⟨fields, type, h, -⟩
      · rw [hv] at h
        cases h
      · exact hnull (Option.some.inj (hv.symm.trans h))
      · exact hobject fields (Option.some.inj (hv.symm.trans h))
    · rcases hsound with h | h | ⟨fields, type, h, htyped, hnull⟩
      · rw [hv] at h
        cases h
      · cases hv.symm.trans h
      · obtain rfl := Json.obj.inj (Option.some.inj (hv.symm.trans h))
        exact htype type ⟨htyped, hnull⟩
  · intro hnone
    cases hv : answer.get? name with
    | none => exact .inl hv
    | some v =>
      by_cases hnull : v = .null
      · exact .inr (.inl (hnull ▸ hv))
      · by_cases hobject : ∃ fields, v = .obj fields
        · obtain ⟨fields, rfl⟩ := hobject
          have htyped : ¬ Lacks fields "type" := fun h => hnone _ (.untyped hv h)
          obtain ⟨type, htype, hne⟩ := Classical.not_forall_not.mp htyped
          exact .inr (.inr ⟨fields, type, hv, htype, hne⟩)
        · exact absurd (.notObject hv hnull (not_exists.mp hobject)) (hnone _)

/-- Findings about an attachment are about the attachment or its type. -/
theorem Defect.location {f : Finding} (h : Defect answer name f) :
    f.location = name ∨ f.location = name ++ ".type" := by
  cases h with
  | notObject => exact .inl rfl
  | untyped => exact .inr rfl

end Attachment

/-! ## The check of the record -/

namespace Scenario

variable {s : Scenario} {c : Contract} {now : Instant} {answer : Json}

/-- An answered call is found fault with by what the rules find in its record. -/
theorem findings_answered (delegation : DocumentRules) :
    (s.answered ⟨delegation, .execution⟩ c now answer).findings
      = DocumentRules.execution.findings (s.recordFields c now answer) :=
  rfl

open DocumentRules in
/-- **Only attachments can be found fault with**, if the time is written as a timestamp. -/
theorem findings_recordFields (hnow : isTimestamp (.str now.textInDigits) = true) :
    DocumentRules.execution.findings (s.recordFields c now answer) = proofCarriers.flatMap
      (DocumentRules.execution.checkProof (s.recordFields c now answer)) := by
  have hfields : checkFields id DocumentRules.execution.requiredFields
      (s.recordFields c now answer) = [] := by
    rw [checkFields, List.map_eq_nil_iff, List.filter_eq_nil_iff]
    intro name hname
    obtain ⟨text, htext⟩ := exists_has_recordFields hname
    rw [present?_eq_some_iff.mpr htext]
    exact Bool.false_ne_true
  have htimestamp : checkTimestamp (s.recordFields c now answer) "timestamp" = [] := by
    rw [checkTimestamp, present?_eq_some_iff.mpr has_timestamp_recordFields]
    exact if_pos hnow
  have htimestamps : DocumentRules.execution.timestampFields.flatMap
      (checkTimestamp (s.recordFields c now answer)) = [] := by
    rw [DocumentRules.execution, List.flatMap_singleton, htimestamp]
  have hrevoked : DocumentRules.execution.checkRevocation (s.recordFields c now answer) = [] := rfl
  rw [findings, hfields, htimestamps, hrevoked, List.nil_append, List.nil_append, List.append_nil]

open DocumentRules in
/-- Of an attachment that is an object, only its type is asked for. -/
theorem checkProof_of_attached {doc fields : List (String × Json)} {name : String}
    (h : Has doc name (.obj fields)) :
    DocumentRules.execution.checkProof doc name
      = if (present? fields "type").isNone = true then
          [.error .missingField (name ++ ".type") (missingText (name ++ ".type"))]
        else [] := by
  have hplace : name ++ "." ++ "type" = name ++ ".type" := String.append_assoc ..
  rw [checkProof_of_object h]
  simp only [DocumentRules.execution, checkProofType, checkFields, List.filter_cons,
    List.filter_nil, List.nil_append]
  split
  · exact congrArg (fun place => [Finding.error .missingField place (missingText place)]) hplace
  · rfl

open DocumentRules in
/-- **The check of an attachment finds its defects**, and nothing else. -/
theorem reported_checkProof_of_answer {doc : List (String × Json)} {name : String}
    (h : Keyed.get? name doc = answer.get? name) :
    Reported (Attachment.Defect answer) [name] (DocumentRules.execution.checkProof doc name) := by
  by_cases hlacks : Lacks doc name
  · rw [checkProof_of_lacks hlacks]
    refine .kept (fun f hf => ?_) .nil
    cases hf with
    | notObject hv hnull => exact hlacks _ ⟨h.trans hv, hnull⟩
    | untyped hv => exact hlacks _ ⟨h.trans hv, nofun⟩
  · obtain ⟨v, hhas⟩ := Classical.not_forall_not.mp hlacks
    have hv : answer.get? name = some v := h.symm.trans hhas.1
    by_cases hobject : ∃ fields, v = .obj fields
    · obtain ⟨fields, rfl⟩ := hobject
      have htype : (present? fields "type").isNone = true ↔ Lacks fields "type" := by
        rw [Option.isNone_iff_eq_none, present?_eq_none_iff]
      rw [checkProof_of_attached hhas]
      refine .single (fun hnone => .untyped hv (htype.mp hnone)) fun hsome f hf => ?_
      cases hf with
      | notObject hv' _ hobject => exact hobject fields (Option.some.inj (hv'.symm.trans hv))
      | untyped hv' hlacks =>
        obtain rfl := Json.obj.inj (Option.some.inj (hv'.symm.trans hv))
        exact hsome (htype.mpr hlacks)
    · rw [not_exists] at hobject
      rw [checkProof_of_not_object hhas hobject]
      exact .broken (.notObject hv hhas.2 hobject) .nil

/-- **The findings in an execution record are the defects of its attachments.** -/
theorem reported_recordFields (hnow : isTimestamp (.str now.textInDigits) = true) :
    Reported (Attachment.Defect answer) ["proof", "attestation"]
      (DocumentRules.execution.findings (s.recordFields c now answer)) := by
  have hcarriers : Reported (Attachment.Defect answer) (DocumentRules.proofCarriers.map id)
      (DocumentRules.execution.findings (s.recordFields c now answer)) := by
    rw [findings_recordFields hnow]
    exact .map fun name hname =>
      reported_checkProof_of_answer (get?_recordFields_of_carrier hname)
  exact hcarriers

/-! ## Runs -/

/-- **What a run comes to**: it is refused, or its call is answered, or its call fails. What holds
in all three cases holds of every outcome of the run. -/
theorem satisfiesM_run {m : Type → Type} [Monad m] [LawfulMonad m] {p : Outcome → Prop}
    {rules : CallRules} (hrefused : ∀ o, s.refusal? rules = some o → p o)
    (hanswered : ∀ answer, p (s.answered rules c now answer)) (hfailed : ∀ e, p (s.failed e))
    (install : Agent m → m (Agent m)) : SatisfiesM p (s.run rules c now install) := by
  unfold run
  cases hrefusal : s.refusal? rules with
  | some o => exact SatisfiesM.pure (hrefused o hrefusal)
  | none =>
    refine SatisfiesM.bind SatisfiesM.trivial fun target _ =>
      SatisfiesM.bind SatisfiesM.trivial fun given _ => ?_
    cases given with
    | ok answer => exact SatisfiesM.pure (hanswered answer)
    | error e => exact SatisfiesM.pure (hfailed e)

/-- **The findings of a completed call are the defects of what is attached to its answer.** Let a
scenario be run under the usual rules for execution records, and any rules for delegations, at a
time that is written in the exact form. Whatever the handlers do and in whatever monad, if the call
is completed with an answer, the record is checked. Nothing is found just if the proof and the
attestation of the answer are each missing, `null`, or an object with a type. The findings are the
defects of these two, in order, and none is about a field that the run itself has put there. -/
theorem findings_of_completed_call {m : Type → Type} [Monad m] [LawfulMonad m]
    (delegation : DocumentRules) (s : Scenario) (c : Contract) {now : Instant}
    (hnow : TimeText.isExact now.textInDigits.toList = true)
    (install : Agent m → m (Agent m)) :
    SatisfiesM (fun o => ∀ answer, o.result = some answer →
        o.error = none
        ∧ (o.findings = [] ↔ ∀ name ∈ ["proof", "attestation"], Attachment.Sound answer name)
        ∧ Reported (Attachment.Defect answer) ["proof", "attestation"] o.findings
        ∧ ∀ f ∈ o.findings, f.location ∉ ["from", "to", "intent", "timestamp"])
      (s.run ⟨delegation, .execution⟩ c now install) := by
  have htimestamp : isTimestamp (.str now.textInDigits) = true := by
    rw [isTimestamp, hnow, Bool.true_or, Bool.true_or]
  refine satisfiesM_run (fun o ho answer hresult => ?_) (fun answer a hresult => ?_)
    (fun e answer hresult => ?_) install
  · obtain ⟨status, findings, error, rfl⟩ := exists_unanswered_of_refusal ho
    cases hresult
  · obtain rfl : answer = a := Option.some.inj hresult
    have hreported : Reported (Attachment.Defect answer) ["proof", "attestation"]
        (s.answered ⟨delegation, .execution⟩ c now answer).findings := by
      rw [findings_answered]
      exact reported_recordFields htimestamp
    refine ⟨rfl, ?_, hreported, fun f hf => ?_⟩
    · simp only [Attachment.sound_iff]
      exact hreported.eq_nil_iff
    · obtain ⟨name, hname, hdefect⟩ := hreported.exists_breach hf
      rcases List.mem_pair.mp hname with rfl | rfl <;>
        rcases hdefect.location with h | h <;> rw [h] <;> decide
  · cases hresult

/-- Two nameless agents and an operation without an intent. The handler counts its calls, and
answers with a proof that is a text and an attestation whose type is `null`. -/
theorem findings_of_completed_call_attached :
    let answer : Json :=
      .obj [("attestation", .obj [("type", .null)]), ("proof", .str "signed")]
    let c : Contract := ⟨"Market", none, none, [⟨"pay", [], none, .ofAttributes []⟩]⟩
    let s : Scenario := ⟨"pay", "market.webidl", "pay", .null, none, "completed", "", "", []⟩
    let install : Agent (StateM Nat) → StateM Nat (Agent (StateM Nat)) := fun target =>
      pure (target.bind "" fun _ => do modify (· + 1); return answer)
    let ran := (s.run ⟨.delegation, .execution⟩ c .epoch install).run 0
    TimeText.isExact Instant.epoch.textInDigits.toList = true
      ∧ ran.2 = 1 ∧ ran.1.result = some answer ∧ ran.1.error = none
      ∧ Reported (Attachment.Defect answer) ["proof", "attestation"] ran.1.findings
      ∧ ran.1.findings.map (fun f => (f.kind, f.location))
        = [(.invalidProofType, "proof"), (.missingField, "attestation.type")] := by
  intro answer c s install ran
  have hnow : TimeText.isExact Instant.epoch.textInDigits.toList = true := by
    decide
  have hall := findings_of_completed_call .delegation s c hnow install
  rw [SatisfiesM_StateT_eq] at hall
  have hran := SatisfiesM_Id_eq.mp (hall 0)
  have hresult : ran.1.result = some answer := rfl
  obtain ⟨herror, -, hreported, -⟩ := hran answer hresult
  exact ⟨hnow, rfl, hresult, herror, hreported, by decide⟩

end Scenario

end IntentContract
