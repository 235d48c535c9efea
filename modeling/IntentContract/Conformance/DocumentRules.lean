import IntentContract.Conformance.Finding
import IntentContract.Failure
import IntentContract.Json.Reader
import IntentContract.Json.Text
import IntentContract.Time.Timestamp

/-!
# Rules for documents

Documents about a call are JSON objects of two kinds: a **delegation** entitles an agent to act
for another, and an **execution record** says what was done. Rules list the fields that such a
document must have, those that must be timestamps, and what its proof must look like. A field that
is `null` counts as missing throughout.
-/

namespace IntentContract

/-- The kinds of documents. -/
inductive DocumentKind where
  | delegation
  | execution
  deriving DecidableEq

namespace DocumentKind

/-- The name of a kind in records. -/
def recordName : DocumentKind → String
  | .delegation => "delegation-context"
  | .execution => "execution-record"

/-- The kind with a short or a full name. -/
def ofName? (name : String) : Option DocumentKind :=
  if name = "delegation" || name = "delegation-context" then some .delegation
  else if name = "execution" || name = "execution-record" then some .execution
  else none

/-- The message for a name that is no kind's. -/
def unknownMessage (name : String) : String :=
  "unknown document kind '" ++ name ++ "', expected delegation or execution"

/-- Reads a kind by its name in records. -/
def read (isNothing : Json → Bool) (v : Json) : Except Json.RecordError DocumentKind := do
  match ← Json.asName isNothing v with
  | "delegation-context" => .ok .delegation
  | "execution-record" => .ok .execution
  | _ => .error .malformed

end DocumentKind

/-- **The rules of a document check.** -/
structure DocumentRules where
  kind : DocumentKind
  /-- The fields that must be there. -/
  requiredFields : List String
  /-- The fields that must be timestamps if they are there. -/
  timestampFields : List String
  /-- The type that a proof must have, if rules ask for one. -/
  proofType : Option String
  /-- The fields that a proof must have. -/
  proofFields : List String
  deriving DecidableEq

namespace DocumentRules

/-- **The usual rules for delegations.** -/
def delegation : DocumentRules where
  kind := .delegation
  requiredFields := ["delegator", "delegate", "scope", "issuedAt", "expiresAt"]
  timestampFields := ["issuedAt", "expiresAt"]
  proofType := some "Ed25519Signature2020"
  proofFields := ["type", "created", "proofValue"]

/-- **The usual rules for execution records.** -/
def execution : DocumentRules where
  kind := .execution
  requiredFields := ["from", "to", "intent", "timestamp"]
  timestampFields := ["timestamp"]
  proofType := none
  proofFields := ["type"]

/-- The usual rules for a kind. -/
def usual : DocumentKind → DocumentRules
  | .delegation => delegation
  | .execution => execution

/-- The fields that may carry a proof. -/
def proofCarriers : List String := ["proof", "attestation"]

/-- A field's value, none if it is missing or `null`. -/
def present? (fields : List (String × Json)) (name : String) : Option Json :=
  match Keyed.get? name fields with
  | none => none
  | some .null => none
  | some v => some v

/-- The required fields that are missing; `place` gives a field's location. -/
def checkFields (place : String → String) (required : List String)
    (fields : List (String × Json)) : List Finding :=
  (required.filter fun n => (present? fields n).isNone).map fun n =>
    .error .missingField (place n) ("required field '" ++ place n ++ "' is missing or null")

/-- The finding about a field that should be a timestamp. -/
def checkTimestamp (fields : List (String × Json)) (name : String) : List Finding :=
  match present? fields name with
  | none => []
  | some v =>
    if isTimestamp v then []
    else [.error .invalidTimestamp name
      ("'" ++ name ++ "' is not a valid timestamp: " ++ v.compact)]

/-- The finding about the type of a proof. -/
def checkProofType (expected : Option String) (carrier : String)
    (proof : List (String × Json)) : List Finding :=
  match expected with
  | none => []
  | some expected =>
    let actual := (Keyed.get? "type" proof).bind Json.string?
    if actual = some expected then []
    else
      let found := match actual with
        | some a => "'" ++ a ++ "'"
        | none => "none"
      [.error .invalidProofType (carrier ++ ".type")
        (carrier ++ " type must be '" ++ expected ++ "', found " ++ found)]

/-- The findings about a field that may carry a proof. -/
def checkProof (rules : DocumentRules) (fields : List (String × Json)) (carrier : String) :
    List Finding :=
  match present? fields carrier with
  | none => []
  | some (.obj proof) =>
    checkProofType rules.proofType carrier proof
      ++ checkFields (fun n => carrier ++ "." ++ n) rules.proofFields proof
  | some other =>
    [.error .invalidProofType carrier
      ("'" ++ carrier ++ "' must be an object, found " ++ other.kindName)]

/-- Whether a document says that it is revoked. -/
def isRevoked (fields : List (String × Json)) : Bool :=
  match Keyed.get? "revoked" fields with
  | some (.bool true) => true
  | _ => false

/-- The finding about a revoked delegation. -/
def checkRevocation (rules : DocumentRules) (fields : List (String × Json)) : List Finding :=
  if rules.kind = .delegation && isRevoked fields then
    [.error .revokedDelegation "revoked" "delegation has been revoked"]
  else []

/-- The findings about a document's fields. -/
def findings (rules : DocumentRules) (fields : List (String × Json)) : List Finding :=
  checkFields id rules.requiredFields fields
    ++ rules.timestampFields.flatMap (checkTimestamp fields)
    ++ proofCarriers.flatMap (rules.checkProof fields)
    ++ rules.checkRevocation fields

/-- **Checks a document** against rules. -/
def check (rules : DocumentRules) : Json → Except Failure Report
  | .obj fields => .ok ⟨rules.findings fields⟩
  | v => .error (.malformedDocument (.notObject v.kindName))

/-- **Checks a text** as a document, in its free-form reading. -/
def checkText (rules : DocumentRules) (text : String) : Except Failure Report :=
  match Json.parse? text with
  | none => .error (.malformedDocument .notJson)
  | some v => rules.check v.normal

/-! ## Records -/

/-- The JSON record of rules. -/
def toJson (rules : DocumentRules) : Json :=
  .obj [("kind", .str rules.kind.recordName),
    ("required_fields", Json.strings rules.requiredFields),
    ("timestamp_fields", Json.strings rules.timestampFields),
    ("expected_proof_type", Json.optional rules.proofType),
    ("proof_required_fields", Json.strings rules.proofFields)]

/-- How rules are read; a field that is missing asks for nothing. -/
def reader (isNothing : Json → Bool) : Json.RecordReader DocumentRules :=
  let names := Json.asList Json.asString
  DocumentRules.mk <$> .defaulted ["kind"] .delegation (DocumentKind.read isNothing)
    <*> .defaulted ["required_fields", "requiredFields"] [] names
    <*> .defaulted ["timestamp_fields", "timestampFields"] [] names
    <*> .defaulted ["expected_proof_type", "expectedProofType"] none (Json.asOption Json.asString)
    <*> .defaulted ["proof_required_fields", "proofRequiredFields"] [] names

/-- Reads rules from a JSON value. -/
def ofJson : Json.Reading DocumentRules :=
  (reader Json.isNull).read

end DocumentRules

end IntentContract
