import IntentContract.Json.Record

/-!
# Findings and reports

A check collects what it finds, and never stops at the first breach. A report is valid if nothing
in it is an error; warnings do not count against it.
-/

namespace IntentContract

/-- How grave a finding is. -/
inductive Severity where
  | error
  | warning
  deriving DecidableEq

/-- The word for a severity. -/
def Severity.name : Severity → String
  | .error => "error"
  | .warning => "warning"

/-- **The kinds of findings.** -/
inductive FindingKind where
  | unknownAttribute
  | missingAttribute
  | missingDelegationParameter
  | duplicateOperation
  | missingField
  | invalidTimestamp
  | invalidProofType
  | revokedDelegation
  deriving DecidableEq

namespace FindingKind

/-- All kinds. -/
def all : List FindingKind :=
  [.unknownAttribute, .missingAttribute, .missingDelegationParameter, .duplicateOperation,
    .missingField, .invalidTimestamp, .invalidProofType, .revokedDelegation]

/-- The name of a kind in messages. -/
def name : FindingKind → String
  | .unknownAttribute => "unknown-attribute"
  | .missingAttribute => "missing-attribute"
  | .missingDelegationParameter => "missing-delegation-parameter"
  | .duplicateOperation => "duplicate-operation"
  | .missingField => "missing-field"
  | .invalidTimestamp => "invalid-timestamp"
  | .invalidProofType => "invalid-proof-type"
  | .revokedDelegation => "revoked-delegation"

/-- The name of a kind in records. -/
def recordName : FindingKind → String
  | .unknownAttribute => "UnknownExtensionAttribute"
  | .missingAttribute => "MissingRequiredAttribute"
  | .missingDelegationParameter => "MissingDelegationParameter"
  | .duplicateOperation => "DuplicateOperation"
  | .missingField => "MissingRequiredField"
  | .invalidTimestamp => "InvalidTimestamp"
  | .invalidProofType => "InvalidProofType"
  | .revokedDelegation => "RevokedDelegation"

/-- The kind with a name in records. -/
def ofRecordName? (name : String) : Option FindingKind :=
  all.find? fun k => k.recordName == name

end FindingKind

/-- **A finding**: what is wrong, how gravely, and where. -/
structure Finding where
  severity : Severity
  kind : FindingKind
  message : String
  location : String
  deriving DecidableEq

namespace Finding

/-- An error. -/
def error (kind : FindingKind) (location message : String) : Finding :=
  { severity := .error, kind, message, location }

/-- A warning. -/
def warning (kind : FindingKind) (location message : String) : Finding :=
  { severity := .warning, kind, message, location }

/-- **The text of a finding**; an empty location is left out. -/
def text (f : Finding) : String :=
  let place := if f.location = "" then "" else " at " ++ f.location
  f.severity.name ++ " [" ++ f.kind.name ++ "]" ++ place ++ ": " ++ f.message

/-- The JSON record of a finding. -/
def toJson (f : Finding) : Json :=
  .obj [("kind", .str f.kind.recordName), ("location", .str f.location),
    ("message", .str f.message), ("severity", .str f.severity.name)]

/-- Reads a severity. -/
def readSeverity (v : Json) : Except Json.RecordError Severity := do
  match ← Json.asName Json.isNull v with
  | "error" => .ok .error
  | "warning" => .ok .warning
  | _ => .error .malformed

/-- Reads a kind by its name in records. -/
def readKind (v : Json) : Except Json.RecordError FindingKind := do
  match FindingKind.ofRecordName? (← Json.asName Json.isNull v) with
  | some k => .ok k
  | none => .error .malformed

/-- Reads a finding. -/
def ofJson (v : Json) : Except Json.RecordError Finding := do
  let fields ← Json.asRecord ["severity", "kind", "message", "location"] [] v
  let severity ← Json.required "severity" readSeverity fields
  let kind ← Json.required "kind" readKind fields
  let message ← Json.required "message" Json.asString fields
  let location ← Json.required "location" Json.asString fields
  return { severity, kind, message, location }

end Finding

/-- **A report**: the findings of a check, in the order they were made. -/
structure Report where
  findings : List Finding
  deriving DecidableEq

namespace Report

/-- The findings that are errors. -/
def errors (r : Report) : List Finding :=
  r.findings.filter fun f => f.severity == .error

/-- The findings that are warnings. -/
def warnings (r : Report) : List Finding :=
  r.findings.filter fun f => f.severity == .warning

/-- Whether a report has no error. -/
def isValid (r : Report) : Bool :=
  !r.findings.any fun f => f.severity == .error

/-- The number of findings of a kind. -/
def count (r : Report) (kind : FindingKind) : Nat :=
  (r.findings.filter fun f => f.kind == kind).length

end Report

end IntentContract
