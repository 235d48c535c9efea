import IntentContract.Conformance.DocumentRules
import IntentContract.Proofs.Conformance.Reported

/-!
# What is found in a document

The rules for documents spell out fields, and the same field may be listed twice, be required and
have to be a timestamp, or be `proof` or `revoked` itself. No listing takes anything from another:
the rules are a list of duties (`DocumentRules.duties`), each of them is broken or kept by what the
document has under the names it speaks of (`DocumentRules.Breach`), and the check reports exactly
those that are broken.

The duties differ in what they make of a field that is not there. A field that is missing or `null`
breaks the duty to have it and no other, so a timestamp, a proof and what a proof must have are
only asked for where there is something to look at.
-/

namespace IntentContract.DocumentRules

/-! ## Duties -/

/-- A field of an object that counts as given: one that is not `null`. -/
def Has (doc : List (String × Json)) (name : String) (v : Json) : Prop :=
  Keyed.get? name doc = some v ∧ v ≠ .null

/-- A field of an object that is missing or `null`. -/
def Lacks (doc : List (String × Json)) (name : String) : Prop :=
  ∀ v, ¬ Has doc name v

/-- **What rules can ask of a document.** -/
inductive Duty where
  /-- To have a field. -/
  | field (name : String)
  /-- That a field is a timestamp. -/
  | timestamp (name : String)
  /-- That what stands for a proof is an object. -/
  | proofObject (carrier : String)
  /-- That a proof has the type that is asked for. -/
  | proofType (carrier : String)
  /-- That a proof has a field. -/
  | proofField (carrier name : String)
  /-- Not to be revoked. -/
  | unrevoked

/-- **The duties that rules make up**, in the order of the check. -/
def duties (rules : DocumentRules) : List Duty :=
  rules.requiredFields.map .field
    ++ rules.timestampFields.map .timestamp
    ++ ["proof", "attestation"].flatMap (fun carrier =>
        [.proofObject carrier, .proofType carrier] ++ rules.proofFields.map (.proofField carrier))
    ++ [.unrevoked]

/-- The text for a required field that is not there. -/
def missingText (place : String) : String :=
  "required field '" ++ place ++ "' is missing or null"

/-- The type of a proof as a message has it. -/
def typeText (proof : List (String × Json)) : String :=
  match Keyed.get? "type" proof with
  | some (.str type) => "'" ++ type ++ "'"
  | _ => "none"

/-- **How a document breaks a duty**, and the finding that this is worth. -/
inductive Breach (rules : DocumentRules) (doc : List (String × Json)) : Duty → Finding → Prop where
  | field {n : String} (hlacks : Lacks doc n) :
      Breach rules doc (.field n) (.error .missingField n (missingText n))
  | timestamp {n : String} {v : Json} (hhas : Has doc n v) (hv : isTimestamp v = false) :
      Breach rules doc (.timestamp n) (.error .invalidTimestamp n
        ("'" ++ n ++ "' is not a valid timestamp: " ++ v.compact))
  | proofObject {c : String} {v : Json} (hhas : Has doc c v) (hv : ∀ proof, v ≠ .obj proof) :
      Breach rules doc (.proofObject c) (.error .invalidProofType c
        ("'" ++ c ++ "' must be an object, found " ++ v.kindName))
  | proofType {c expected : String} {proof : List (String × Json)} (hhas : Has doc c (.obj proof))
      (hexpected : rules.proofType = some expected)
      (htype : Keyed.get? "type" proof ≠ some (.str expected)) :
      Breach rules doc (.proofType c) (.error .invalidProofType (c ++ ".type")
        (c ++ " type must be '" ++ expected ++ "', found " ++ typeText proof))
  | proofField {c n : String} {proof : List (String × Json)} (hhas : Has doc c (.obj proof))
      (hlacks : Lacks proof n) :
      Breach rules doc (.proofField c n)
        (.error .missingField (c ++ "." ++ n) (missingText (c ++ "." ++ n)))
  | unrevoked (hkind : rules.kind = .delegation) (hhas : Has doc "revoked" (.bool true)) :
      Breach rules doc .unrevoked
        (.error .revokedDelegation "revoked" "delegation has been revoked")

variable {rules : DocumentRules} {doc other : List (String × Json)}

theorem Has.unique {n : String} {v w : Json} (h : Has doc n v) (h' : Has doc n w) : v = w :=
  Option.some.inj (h.1.symm.trans h'.1)

/-- A breach is worth one finding. -/
theorem Breach.unique {d : Duty} {f g : Finding} (h : rules.Breach doc d f)
    (h' : rules.Breach doc d g) : f = g := by
  cases h with
  | field => cases h'; rfl
  | timestamp hhas =>
    cases h' with
    | timestamp hhas' => rw [hhas.unique hhas']
  | proofObject hhas =>
    cases h' with
    | proofObject hhas' => rw [hhas.unique hhas']
  | proofType hhas hexpected =>
    cases h' with
    | proofType hhas' hexpected' =>
      obtain rfl := Json.obj.inj (hhas.unique hhas')
      obtain rfl := Option.some.inj (hexpected.symm.trans hexpected')
      rfl
  | proofField => cases h'; rfl
  | unrevoked => cases h'; rfl

theorem Breach.severity {d : Duty} {f : Finding} (h : rules.Breach doc d f) :
    f.severity = .error := by
  cases h <;> rfl

/-! ## The check, duty by duty -/

theorem present?_eq_some_iff {n : String} {v : Json} :
    present? doc n = some v ↔ Has doc n v := by
  unfold present? Has
  split
  · next h => simp [h]
  · next h => simp [h, eq_comm]
  · next w hw h =>
    rw [h]
    constructor
    · intro hv
      obtain rfl := Option.some.inj hv
      exact ⟨rfl, hw⟩
    · exact And.left

theorem present?_eq_none_iff {n : String} : present? doc n = none ↔ Lacks doc n := by
  rw [Option.eq_none_iff_forall_ne_some]
  exact forall_congr' fun v => not_congr present?_eq_some_iff

/-- Required fields, of a document or of a proof. -/
theorem reported_checkFields {breach : Duty → Finding → Prop} {duty : String → Duty}
    {place : String → String} {names : List String}
    (hbreach : ∀ n f, breach (duty n) f
      ↔ Lacks doc n ∧ f = .error .missingField (place n) (missingText (place n))) :
    Reported breach (names.map duty) (checkFields place names doc) := by
  refine .map_filter (fun n hn => ?_) fun n hn f hf => ?_
  · exact (hbreach n _).mpr ⟨present?_eq_none_iff.mp (Option.isNone_iff_eq_none.mp hn), rfl⟩
  · rw [present?_eq_none_iff.mpr ((hbreach n f).mp hf).1] at hn
    cases hn

theorem reported_checkTimestamp (n : String) :
    Reported (rules.Breach doc) [.timestamp n] (checkTimestamp doc n) := by
  unfold checkTimestamp
  cases hv : present? doc n with
  | none =>
    refine .kept (fun f hf => ?_) .nil
    cases hf with
    | timestamp hhas => exact present?_eq_none_iff.mp hv _ hhas
  | some v =>
    have hhas := present?_eq_some_iff.mp hv
    dsimp only
    split
    · next htime =>
      refine .kept (fun f hf => ?_) .nil
      cases hf with
      | timestamp hhas' hv' =>
        rw [← hhas.unique hhas', htime] at hv'
        cases hv'
    · next htime => exact .broken (.timestamp hhas (Bool.eq_false_iff.mpr htime)) .nil

/-- Where there is no proof, nothing is asked of it. -/
theorem kept_of_not_proof {c : String} (h : ∀ proof, ¬ Has doc c (.obj proof)) {d : Duty}
    (hd : d ∈ Duty.proofType c :: rules.proofFields.map (Duty.proofField c)) (f : Finding) :
    ¬ rules.Breach doc d f := by
  intro hf
  rcases List.mem_cons.mp hd with rfl | hd
  · cases hf with
    | proofType hhas => exact h _ hhas
  · obtain ⟨n, -, rfl⟩ := List.mem_map.mp hd
    cases hf with
    | proofField hhas => exact h _ hhas

theorem checkProofType_of_eq {expected c : String} {proof : List (String × Json)}
    (h : Keyed.get? "type" proof = some (.str expected)) :
    checkProofType (some expected) c proof = [] := by
  simp [checkProofType, h, Json.string?]

theorem checkProofType_of_ne {expected c : String} {proof : List (String × Json)}
    (h : Keyed.get? "type" proof ≠ some (.str expected)) :
    checkProofType (some expected) c proof = [.error .invalidProofType (c ++ ".type")
      (c ++ " type must be '" ++ expected ++ "', found " ++ typeText proof)] := by
  unfold checkProofType typeText
  cases htype : Keyed.get? "type" proof with
  | none => rfl
  | some v =>
    cases v with
    | str type =>
      have hne : type ≠ expected := fun heq => h (by rw [htype, heq])
      simp [Json.string?, hne]
    | _ => rfl

theorem reported_checkProofType {c : String} {proof : List (String × Json)}
    (hhas : Has doc c (.obj proof)) :
    Reported (rules.Breach doc) [.proofType c] (checkProofType rules.proofType c proof) := by
  cases hexpected : rules.proofType with
  | none =>
    refine .kept (fun f hf => ?_) .nil
    cases hf with
    | proofType _ hsome =>
      rw [hexpected] at hsome
      cases hsome
  | some expected =>
    by_cases htype : Keyed.get? "type" proof = some (.str expected)
    · rw [checkProofType_of_eq htype]
      refine .kept (fun f hf => ?_) .nil
      cases hf with
      | proofType hhas' hsome htype' =>
        obtain rfl := Json.obj.inj (hhas.unique hhas')
        obtain rfl := Option.some.inj (hexpected.symm.trans hsome)
        exact htype' htype
    · rw [checkProofType_of_ne htype]
      exact .broken (.proofType hhas hexpected htype) .nil

theorem checkProof_of_lacks {c : String} (h : Lacks doc c) : rules.checkProof doc c = [] := by
  rw [checkProof, present?_eq_none_iff.mpr h]

theorem checkProof_of_object {c : String} {proof : List (String × Json)}
    (h : Has doc c (.obj proof)) :
    rules.checkProof doc c = checkProofType rules.proofType c proof
      ++ checkFields (fun n => c ++ "." ++ n) rules.proofFields proof := by
  rw [checkProof, present?_eq_some_iff.mpr h]

theorem checkProof_of_not_object {c : String} {v : Json} (h : Has doc c v)
    (hv : ∀ proof, v ≠ .obj proof) :
    rules.checkProof doc c = [.error .invalidProofType c
      ("'" ++ c ++ "' must be an object, found " ++ v.kindName)] := by
  rw [checkProof, present?_eq_some_iff.mpr h]
  cases v with
  | obj proof => exact absurd rfl (hv proof)
  | _ => rfl

/-- A field that may carry a proof: its duties are kept where there is none, and where it is no
object there is only that to be said about it. -/
theorem reported_checkProof (c : String) :
    Reported (rules.Breach doc)
      ([.proofObject c, .proofType c] ++ rules.proofFields.map (.proofField c))
      (rules.checkProof doc c) := by
  by_cases hlacks : Lacks doc c
  · rw [checkProof_of_lacks hlacks]
    refine .kept (fun f hf => ?_) (.nil_of_kept fun d hd => kept_of_not_proof (fun _ => hlacks _) hd)
    cases hf with
    | proofObject hhas => exact hlacks _ hhas
  · obtain ⟨v, hhas⟩ := Classical.not_forall_not.mp hlacks
    by_cases hobject : ∃ proof, v = .obj proof
    · obtain ⟨proof, rfl⟩ := hobject
      rw [checkProof_of_object hhas]
      refine .kept (fun f hf => ?_) ((reported_checkProofType hhas).append ?_)
      · cases hf with
        | proofObject hhas' hv => exact hv proof (hhas.unique hhas').symm
      · refine reported_checkFields fun n f => ⟨fun hf => ?_, ?_⟩
        · cases hf with
          | proofField hhas' hmissing =>
            obtain rfl := Json.obj.inj (hhas.unique hhas')
            exact ⟨hmissing, rfl⟩
        · rintro ⟨hmissing, rfl⟩
          exact .proofField hhas hmissing
    · rw [not_exists] at hobject
      rw [checkProof_of_not_object hhas hobject]
      refine .broken (.proofObject hhas hobject) (.nil_of_kept fun d hd => kept_of_not_proof ?_ hd)
      intro proof hproof
      exact hobject proof (hhas.unique hproof)

theorem isRevoked_iff : isRevoked doc = true ↔ Has doc "revoked" (.bool true) := by
  unfold isRevoked Has
  split
  · next h => simp [h]
  · next h => simpa using fun hv => absurd hv (h ·)

theorem reported_checkRevocation :
    Reported (rules.Breach doc) [.unrevoked] (rules.checkRevocation doc) := by
  have hbroken : (rules.kind = .delegation && isRevoked doc) = true
      ↔ rules.kind = .delegation ∧ Has doc "revoked" (.bool true) := by
    rw [Bool.and_eq_true, decide_eq_true_iff, isRevoked_iff]
  refine .single (fun h => ?_) fun h f hf => ?_
  · obtain ⟨hkind, hhas⟩ := hbroken.mp h
    exact .unrevoked hkind hhas
  · cases hf with
    | unrevoked hkind hhas => exact h (hbroken.mpr ⟨hkind, hhas⟩)

/-- **The check finds the duties that are broken, and nothing else.** -/
theorem reported_findings (rules : DocumentRules) (doc : List (String × Json)) :
    Reported (rules.Breach doc) rules.duties (rules.findings doc) := by
  have hfields : Reported (rules.Breach doc) (rules.requiredFields.map .field)
      (checkFields id rules.requiredFields doc) := by
    refine reported_checkFields fun n f => ⟨fun hf => ?_, ?_⟩
    · cases hf with
      | field hlacks => exact ⟨hlacks, rfl⟩
    · rintro ⟨hlacks, rfl⟩
      exact .field hlacks
  exact ((hfields.append (.map fun n _ => reported_checkTimestamp n)).append
    (.flatMap fun c _ => reported_checkProof c)).append reported_checkRevocation

/-! ## Documents that agree -/

/-- Two proofs with the same type, that both have or both lack what rules ask for. -/
structure AgreeAsProofs (rules : DocumentRules) (p q : List (String × Json)) : Prop where
  type : Keyed.get? "type" p = Keyed.get? "type" q
  fields : ∀ n ∈ rules.proofFields, Lacks p n ↔ Lacks q n

/-- Two values that say the same as proofs: the same value, or proofs that agree. -/
inductive SameProof (rules : DocumentRules) : Option Json → Option Json → Prop where
  | same (v : Option Json) : SameProof rules v v
  | objects {p q : List (String × Json)} (h : rules.AgreeAsProofs p q) :
      SameProof rules (some (.obj p)) (some (.obj q))

/-- **Documents that agree on what rules speak of.** Of a required field it matters whether it is
there, of a proof what rules look at in it, and of revocation nothing where rules are not about
delegations. -/
structure Agree (rules : DocumentRules) (doc other : List (String × Json)) : Prop where
  required : ∀ n ∈ rules.requiredFields, Lacks doc n ↔ Lacks other n
  timestamps : ∀ n ∈ rules.timestampFields, Keyed.get? n doc = Keyed.get? n other
  proofs : ∀ c ∈ ["proof", "attestation"],
    SameProof rules (Keyed.get? c doc) (Keyed.get? c other)
  revoked : rules.kind = .delegation → Keyed.get? "revoked" doc = Keyed.get? "revoked" other

theorem SameProof.symm {v w : Option Json} (h : SameProof rules v w) : SameProof rules w v := by
  cases h with
  | same => exact .same _
  | objects h => exact .objects ⟨h.type.symm, fun n hn => (h.fields n hn).symm⟩

theorem Agree.symm (h : rules.Agree doc other) : rules.Agree other doc where
  required n hn := (h.required n hn).symm
  timestamps n hn := (h.timestamps n hn).symm
  proofs c hc := (h.proofs c hc).symm
  revoked hkind := (h.revoked hkind).symm

/-- A proof of one document is one of the other, as far as rules look at it. -/
theorem Agree.exists_proof (h : rules.Agree doc other) {c : String}
    (hc : c ∈ ["proof", "attestation"]) {p : List (String × Json)} (hhas : Has doc c (.obj p)) :
    ∃ q, Has other c (.obj q) ∧ rules.AgreeAsProofs p q := by
  have hsame := h.proofs c hc
  rw [hhas.1] at hsame
  cases hother : Keyed.get? c other with
  | none =>
    rw [hother] at hsame
    cases hsame
  | some w =>
    rw [hother] at hsame
    cases hsame with
    | same => exact ⟨p, ⟨hother, hhas.2⟩, rfl, fun _ _ => Iff.rfl⟩
    | objects h => exact ⟨_, ⟨hother, Json.noConfusion⟩, h⟩

/-- A duty that one document breaks is broken by any that agrees with it. -/
theorem Breach.of_agree {d : Duty} {f : Finding} (hbreach : rules.Breach doc d f)
    (h : rules.Agree doc other) (hd : d ∈ rules.duties) : rules.Breach other d f := by
  cases hbreach with
  | @field n hlacks =>
    have hn : n ∈ rules.requiredFields := by simpa [duties] using hd
    exact .field ((h.required n hn).mp hlacks)
  | @timestamp n v hhas hv =>
    have hn : n ∈ rules.timestampFields := by simpa [duties] using hd
    rw [Has, h.timestamps n hn] at hhas
    exact .timestamp hhas hv
  | @proofObject c v hhas hv =>
    have hc : c ∈ ["proof", "attestation"] := by simpa [duties] using hd
    have hsame := h.proofs c hc
    rw [hhas.1] at hsame
    cases hother : Keyed.get? c other with
    | none => rw [hother] at hsame; cases hsame
    | some w =>
      rw [hother] at hsame
      cases hsame with
      | same => exact .proofObject ⟨hother, hhas.2⟩ hv
      | objects => exact absurd rfl (hv _)
  | @proofType c expected p hhas hexpected htype =>
    have hc : c ∈ ["proof", "attestation"] := by simpa [duties] using hd
    obtain ⟨q, hother, hq⟩ := h.exists_proof hc hhas
    have htext : typeText p = typeText q := by simp only [typeText, hq.type]
    rw [htext]
    exact .proofType hother hexpected (hq.type ▸ htype)
  | @proofField c n p hhas hlacks =>
    have hcases : n ∈ rules.proofFields ∧ "proof" = c
        ∨ n ∈ rules.proofFields ∧ "attestation" = c := by
      simpa [duties] using hd
    obtain ⟨hn, hc⟩ := and_or_left.mpr hcases
    have hc : c ∈ ["proof", "attestation"] := by simpa [eq_comm] using hc
    obtain ⟨q, hother, hq⟩ := h.exists_proof hc hhas
    exact .proofField hother ((hq.fields n hn).mp hlacks)
  | unrevoked hkind hhas =>
    rw [Has, h.revoked hkind] at hhas
    exact .unrevoked hkind hhas

/-- **A check finds exactly what a document lacks.** Whatever the rules, an object has a report:
its findings are those of the duties that it breaks, in order, and it is valid just if it breaks
none. Objects that agree on what the rules speak of have one report. What is no object is
malformed. -/
theorem check_document_exact (rules : DocumentRules) :
    (∀ doc, ∃ report, rules.check (.obj doc) = .ok report
      ∧ Reported (rules.Breach doc) rules.duties report.findings
      ∧ (report.isValid = true ↔ ∀ d ∈ rules.duties, ∀ f, ¬ rules.Breach doc d f))
    ∧ (∀ doc other, rules.Agree doc other → rules.check (.obj doc) = rules.check (.obj other))
    ∧ ∀ v, (∀ doc, v ≠ .obj doc) →
        rules.check v = .error (.malformedDocument (.notObject v.kindName)) := by
  refine ⟨fun doc => ⟨⟨rules.findings doc⟩, rfl, reported_findings rules doc, ?_⟩,
    fun doc other h => ?_, fun v hv => ?_⟩
  · have herrors : (Report.mk (rules.findings doc)).errors = rules.findings doc := by
      refine List.filter_eq_self.mpr fun f hf => ?_
      obtain ⟨d, -, hbreach⟩ := (reported_findings rules doc).exists_breach hf
      rw [hbreach.severity]
      rfl
    exact Reported.isValid_iff (herrors.symm ▸ reported_findings rules doc)
  · have hfindings : rules.findings doc = rules.findings other := by
      refine (reported_findings rules doc).unique (reported_findings rules other) ?_
        fun d f g => Breach.unique
      exact fun d hd f => ⟨fun hf => hf.of_agree h hd, fun hf => hf.of_agree h.symm hd⟩
    rw [check, check, hfindings]
  · cases v with
    | obj doc => exact absurd rfl (hv doc)
    | _ => rfl

/-- Rules that list a field twice, require `proof` and take `revoked` for a timestamp. The document
has a proof of another type without a value, no attestation to speak of, and is revoked; what else
is in it and in its proof makes no difference. -/
theorem check_document_exact_overlapping :
    let rules : DocumentRules := ⟨.delegation, ["at", "proof", "at"], ["at", "revoked"],
      some "Seal", ["type", "value"]⟩
    let doc : List (String × Json) := [("at", .null), ("revoked", .bool true),
      ("proof", .obj [("type", .str "Stamp")]), ("attestation", .arr [])]
    let other : List (String × Json) := [("attestation", .arr []), ("note", .int 1),
      ("proof", .obj [("by", .str "me"), ("type", .str "Stamp"), ("value", .null)]),
      ("revoked", .bool true), ("at", .null)]
    ∃ report, rules.check (.obj doc) = .ok report ∧ rules.check (.obj other) = .ok report
      ∧ Reported (rules.Breach doc) rules.duties report.findings
      ∧ report.findings.map (fun f => (f.kind, f.location))
        = [(.missingField, "at"), (.missingField, "at"), (.invalidTimestamp, "revoked"),
          (.invalidProofType, "proof.type"), (.missingField, "proof.value"),
          (.invalidProofType, "attestation"), (.revokedDelegation, "revoked")]
      ∧ rules.check (.arr [.obj doc]) = .error (.malformedDocument (.notObject "an array")) := by
  intro rules doc other
  obtain ⟨hreport, hagree, hmalformed⟩ := check_document_exact rules
  obtain ⟨report, hcheck, hreported, -⟩ := hreport doc
  have hsame : rules.Agree doc other := by
    have hat : Lacks doc "at" ↔ Lacks other "at" := Iff.rfl
    have hproof : Lacks doc "proof" ↔ Lacks other "proof" :=
      iff_of_false (fun h => h _ ⟨rfl, by simp⟩) fun h => h _ ⟨rfl, by simp⟩
    refine ⟨?_, ?_, ?_, fun _ => rfl⟩
    · simpa [rules] using ⟨hat, hproof, hat⟩
    · simp [rules, doc, other, Keyed.get?]
    · refine List.forall_mem_cons.mpr ⟨.objects ⟨rfl, ?_⟩, List.forall_mem_singleton.mpr (.same _)⟩
      simp [rules, Lacks, Has, Keyed.get?]
  refine ⟨report, hcheck, hagree doc other hsame ▸ hcheck, hreported, ?_, hmalformed _ (by simp)⟩
  obtain rfl := Except.ok.inj hcheck
  decide

end IntentContract.DocumentRules
