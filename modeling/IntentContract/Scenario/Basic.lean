import IntentContract.Agent.Basic

/-!
# Scenarios

A scenario is one call between two agents and the status it should end with. The target follows
**scripts**: for an operation, guards on the payload and a fixed response. A guard that does not
admit the payload rejects the call for its reason.
-/

namespace IntentContract

/-- **A guard**: a condition on one field of a payload. -/
structure Guard where
  field : String
  /-- What the field must be a greater number than, if anything. -/
  greaterThan : Option Double
  /-- Whether the field must be there. -/
  required : Bool
  /-- Why a call is rejected otherwise. -/
  reason : String
  deriving DecidableEq

/-- **A script**: how a target answers the calls of an operation. -/
structure Script where
  operation : String
  guards : List Guard
  /-- The fields of the response. -/
  response : List (String × Json)

/-- **A scenario.** -/
structure Scenario where
  name : String
  /-- The path of the definition, from the directory of the scenario's file. -/
  definition : String
  operation : String
  /-- The arguments, by position or by name. -/
  payload : Json
  /-- The delegation that the call is made under. -/
  delegation : Option Json
  expectedStatus : String
  caller : String
  target : String
  scripts : List Script

/-! ## Guards and scripts -/

/-- Whether a value is a greater number than a bound. -/
def Json.exceeds (v : Json) (bound : Double) : Bool :=
  match v.number? with
  | some x => bound.lt x
  | none => false

/-- **Whether a guard admits a payload.** A field that is `null` counts as missing, and a missing
field exceeds no bound. -/
def Guard.admits (g : Guard) (payload : Payload) : Bool :=
  match (Keyed.get? g.field payload).filter fun v => !v.isNull with
  | none => !g.required && g.greaterThan.isNone
  | some v => g.greaterThan.all v.exceeds

/-- The status of a call that a guard rejects. -/
def rejectedStatus : String := "rejected"

/-- The status of a call that a script accepts. -/
def acceptedStatus : String := "accepted"

/-- **The response of a script**: a rejection for the first guard that does not admit the payload,
else an acceptance with the script's own fields, which may also give another status. -/
def Script.respond (s : Script) (payload : Payload) : Json :=
  match s.guards.find? fun g => !g.admits payload with
  | some g => .obj [("reason", .str g.reason), ("status", .str rejectedStatus)]
  | none => .obj (Keyed.insertAll s.response [("status", .str acceptedStatus)])

/-- The handler that follows a script. -/
def Script.handler {m : Type → Type} [Monad m] (s : Script) : OperationHandler m := fun _ msg =>
  pure (s.respond msg.payload)

/-- Lets an agent follow a script; one for an operation outside its contract is passed over. -/
def Agent.follow {m : Type → Type} [Monad m] (a : Agent m) (s : Script) : Agent m :=
  match a.bindOperation s.operation s.handler with
  | .ok a => a
  | .error _ => a

/-- Lets an agent follow scripts, one after the other. -/
def Agent.followAll {m : Type → Type} [Monad m] (a : Agent m) (scripts : List Script) : Agent m :=
  scripts.foldl Agent.follow a

/-- **The positional arguments of a scenario's call.** An array is taken as it is, an object by the
names of the parameters, `null` as no argument and any other value as a single one. -/
def Scenario.arguments (s : Scenario) (c : Contract) : List Json :=
  match s.payload with
  | .arr args => args
  | .obj named =>
    match c.operation? s.operation with
    | some op => op.argumentsOf named
    | none => []
  | .null => []
  | v => [v]

/-! ## Records -/

open Json

/-- The JSON record of a guard. -/
def Guard.toJson (g : Guard) : Json :=
  .obj [("field", .str g.field), ("greaterThan", (g.greaterThan.map Json.double).getD .null),
    ("required", .bool g.required), ("reason", .str g.reason)]

/-- How a guard is read. -/
def Guard.reader : RecordReader Guard :=
  Guard.mk <$> .required "field" asString
    <*> .defaulted ["greaterThan"] none (asOption asDouble)
    <*> .defaulted ["required"] false asBool
    <*> .required "reason" asString

/-- The JSON record of a script. -/
def Script.toJson (s : Script) : Json :=
  .obj [("operation", .str s.operation), ("guards", .arr (s.guards.map Guard.toJson)),
    ("respond", .obj s.response)]

/-- How a script is read. -/
def Script.reader : RecordReader Script :=
  Script.mk <$> .required "operation" asString
    <*> .defaulted ["guards"] [] (asList Guard.reader.read)
    <*> .defaulted ["respond"] [] (fun v => asFields v.normal)

/-- The JSON record of a scenario. -/
def Scenario.toJson (s : Scenario) : Json :=
  .obj [("name", .str s.name), ("definition", .str s.definition), ("operation", .str s.operation),
    ("payload", s.payload), ("delegation", s.delegation.getD .null),
    ("expectedStatus", .str s.expectedStatus), ("caller", .str s.caller),
    ("target", .str s.target), ("handlers", .arr (s.scripts.map Script.toJson))]

/-- How a scenario is read. -/
def Scenario.reader : RecordReader Scenario :=
  Scenario.mk <$> .required "name" asString
    <*> .required "definition" asString
    <*> .required "operation" asString
    <*> .defaulted ["payload"] .null asFreeForm
    <*> .defaulted ["delegation"] none (asOption asFreeForm)
    <*> .required "expectedStatus" asString
    <*> .defaulted ["caller"] "Buyer" asString
    <*> .defaulted ["target"] "Seller" asString
    <*> .defaulted ["handlers"] [] (asList Script.reader.read)

end IntentContract
