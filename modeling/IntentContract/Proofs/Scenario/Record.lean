import IntentContract.Proofs.Conformance.Documents
import IntentContract.Proofs.Keyed
import IntentContract.Proofs.Scenario.BigStep

/-!
# The record of a call

A call that comes back is written up as an execution record. Every field in it has its name from
the start: most are put there by the run itself, and only a proof and an attestation come from the
answer (`get?_recordFields`).

One of the fields is the time of the call. Rules can ask whether it is a timestamp and nothing
else, so a run comes to the same at any two times that are written as timestamps
(`runScripts_eq_of_timestamps`).
-/

namespace IntentContract

namespace Scenario

variable {rules : CallRules} {s : Scenario} {c : Contract} {now : Instant} {answer : Json}

/-! ## The fields by their names -/

/-- The fields that a run puts into the record of its call. -/
def ownFields (s : Scenario) (c : Contract) (now : Instant) (answer : Json) :
    List (String × Json) :=
  let op := c.operation? s.operation
  [("from", .str s.caller), ("to", .str s.target), ("operation", .str s.operation),
    ("intent", .str ((op.map (·.intent)).getD "")), ("timestamp", .str now.textInDigits),
    ("payload", .obj ((op.map fun op => op.payloadOf (s.arguments c)).getD [])),
    ("result", answer)]

/-- The fields of an execution record. -/
def recordFields (s : Scenario) (c : Contract) (now : Instant) (answer : Json) :
    List (String × Json) :=
  Keyed.ofList (s.ownFields c now answer
    ++ DocumentRules.proofCarriers.flatMap (attachment answer))

/-- What is attached to an answer, by name. -/
theorem get?_attachment (key name : String) :
    Keyed.get? key (attachment answer name).reverse
      = if name = key then answer.get? name else none := by
  unfold attachment
  cases answer.get? name <;> simp [Keyed.get?]

/-- **A record by its names**: what is attached to the answer comes before what the run has put
there. -/
theorem get?_recordFields (key : String) :
    Keyed.get? key (s.recordFields c now answer)
      = (if key ∈ DocumentRules.proofCarriers then answer.get? key else none).or
          (Keyed.get? key (s.ownFields c now answer).reverse) := by
  have hattached : Keyed.get? key
      (DocumentRules.proofCarriers.flatMap (attachment answer)).reverse
        = if key ∈ DocumentRules.proofCarriers then answer.get? key else none := by
    simp only [DocumentRules.proofCarriers, List.flatMap_cons, List.flatMap_nil, List.append_nil,
      List.reverse_append, Keyed.get?_append, get?_attachment, List.mem_cons, List.not_mem_nil,
      or_false]
    by_cases hproof : key = "proof"
    · subst hproof
      simp
    · by_cases hattestation : key = "attestation"
      · subst hattestation
        simp
      · simp [hproof, hattestation, eq_comm]
  rw [recordFields, Keyed.get?_ofList_eq, List.reverse_append, Keyed.get?_append, hattached]

/-- The record has just what is attached to the answer. -/
theorem get?_recordFields_of_carrier {name : String} (h : name ∈ DocumentRules.proofCarriers) :
    Keyed.get? name (s.recordFields c now answer) = answer.get? name := by
  have hown : Keyed.get? name (s.ownFields c now answer).reverse = none := by
    rcases List.mem_pair.mp h with rfl | rfl <;> rfl
  rw [get?_recordFields, if_pos h, hown, Option.or_none]

/-- **The record has every field that it must have**, as a text. -/
theorem exists_has_recordFields {name : String}
    (h : name ∈ DocumentRules.execution.requiredFields) :
    ∃ text, DocumentRules.Has (s.recordFields c now answer) name (.str text) := by
  have hnames : name ∈ ["from", "to", "intent", "timestamp"] := h
  simp only [List.mem_cons, List.not_mem_nil, or_false] at hnames
  rcases hnames with rfl | rfl | rfl | rfl <;> exact ⟨_, get?_recordFields _, Json.noConfusion⟩

theorem has_timestamp_recordFields :
    DocumentRules.Has (s.recordFields c now answer) "timestamp" (.str now.textInDigits) :=
  ⟨get?_recordFields _, Json.noConfusion⟩

end Scenario

/-! ## The time of a call -/

namespace DocumentRules

/-- **Documents that differ in the time only**: both have a timestamp in the field for it, and all
other fields are the same. -/
structure AgreeButTime (fields fields' : List (String × Json)) : Prop where
  others : ∀ name, name ≠ "timestamp" → Keyed.get? name fields = Keyed.get? name fields'
  time : ∃ v, Has fields "timestamp" v ∧ isTimestamp v = true
  time' : ∃ v, Has fields' "timestamp" v ∧ isTimestamp v = true

/-- **Rules find the same in documents that differ in the time only.** -/
theorem findings_eq_of_agreeButTime {fields fields' : List (String × Json)}
    (h : AgreeButTime fields fields') (rules : DocumentRules) :
    rules.findings fields = rules.findings fields' := by
  have hpresent : ∀ name, name ≠ "timestamp" → present? fields name = present? fields' name :=
    fun name hname => by rw [present?, present?, h.others name hname]
  obtain ⟨v, hv, htimestamp⟩ := h.time
  obtain ⟨v', hv', htimestamp'⟩ := h.time'
  rw [← present?_eq_some_iff] at hv hv'
  have hfields : checkFields id rules.requiredFields fields
      = checkFields id rules.requiredFields fields' := by
    have hnone : ∀ name ∈ rules.requiredFields,
        (present? fields name).isNone = (present? fields' name).isNone := by
      intro name _
      by_cases hname : name = "timestamp"
      · rw [hname, hv, hv']
        rfl
      · rw [hpresent name hname]
    rw [checkFields, checkFields, List.filter_congr hnone]
  have htimes : ∀ name ∈ rules.timestampFields,
      checkTimestamp fields name = checkTimestamp fields' name := by
    intro name _
    by_cases hname : name = "timestamp"
    · rw [hname, checkTimestamp, checkTimestamp, hv, hv']
      exact (if_pos htimestamp).trans (if_pos htimestamp').symm
    · rw [checkTimestamp, checkTimestamp, hpresent name hname]
  have hproofs : ∀ carrier ∈ proofCarriers,
      rules.checkProof fields carrier = rules.checkProof fields' carrier := by
    intro carrier hcarrier
    have hne : carrier ≠ "timestamp" := by
      rintro rfl
      exact absurd hcarrier (by decide)
    rw [checkProof, checkProof, hpresent carrier hne]
  have hrevoked : rules.checkRevocation fields = rules.checkRevocation fields' := by
    rw [checkRevocation, checkRevocation, isRevoked, isRevoked, h.others "revoked" (by decide)]
  rw [findings, findings, hfields, hrevoked, List.flatMap_congr htimes, List.flatMap_congr hproofs]

end DocumentRules

namespace Scenario

variable {rules : CallRules} {s : Scenario} {c : Contract} {now : Instant} {answer : Json}

/-- Records of one answer at two times differ in the time only. -/
theorem agreeButTime_recordFields {now' : Instant}
    (hnow : isTimestamp (.str now.textInDigits) = true)
    (hnow' : isTimestamp (.str now'.textInDigits) = true) :
    DocumentRules.AgreeButTime (s.recordFields c now answer) (s.recordFields c now' answer) where
  others name hname := by
    have hown : Keyed.get? name (s.ownFields c now answer).reverse
        = Keyed.get? name (s.ownFields c now' answer).reverse := by
      simp [ownFields, Keyed.get?, Ne.symm hname]
    rw [get?_recordFields, get?_recordFields, hown]
  time := ⟨_, has_timestamp_recordFields, hnow⟩
  time' := ⟨_, has_timestamp_recordFields, hnow'⟩

theorem answered_eq_of_timestamps {now' : Instant}
    (hnow : isTimestamp (.str now.textInDigits) = true)
    (hnow' : isTimestamp (.str now'.textInDigits) = true) :
    s.answered rules c now answer = s.answered rules c now' answer := by
  have hcheck : rules.execution.check (s.executionRecord c now answer)
      = rules.execution.check (s.executionRecord c now' answer) :=
    congrArg (fun findings => Except.ok (Report.mk findings))
      (DocumentRules.findings_eq_of_agreeButTime (agreeButTime_recordFields hnow hnow') _)
  rw [answered, answered, hcheck]

/-- **A run comes to the same at any two times** that are written as timestamps. -/
theorem runScripts_eq_of_timestamps {now' : Instant} (rules : CallRules) (s : Scenario)
    (c : Contract) (hnow : isTimestamp (.str now.textInDigits) = true)
    (hnow' : isTimestamp (.str now'.textInDigits) = true) :
    s.runScripts rules c now = s.runScripts rules c now' := by
  cases hgate : s.refusal? rules with
  | some o => rw [runScripts_of_refusal hgate, runScripts_of_refusal hgate]
  | none =>
    obtain ⟨status, result, error, hends⟩ := exists_ends c s
    obtain ⟨given, hgiven, -⟩ := exists_scriptedCall_eq hends
    rw [runScripts_of_admitted hgate, runScripts_of_admitted hgate, hgiven, hgiven]
    cases given with
    | error e => rfl
    | ok answer => exact answered_eq_of_timestamps hnow hnow'

end Scenario

end IntentContract
