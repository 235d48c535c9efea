import IntentContract.Contract.Basic
import IntentContract.Json.Record
import IntentContract.Time.Timestamp

/-!
# Messages between agents

A message carries an intent from one agent to another, with a payload of named arguments and the
proof that the sender attaches.
-/

namespace IntentContract

/-- Named arguments, in the order of their names. -/
abbrev Payload := List (String × Json)

/-- **A message.** -/
structure Message where
  sender : String
  receiver : String
  intent : String
  proof : Option String
  payload : Payload
  sentAt : Instant

namespace Message

/-- The JSON record of a message, without the time it was sent. -/
def summary (m : Message) : List (String × Json) :=
  [("from", .str m.sender), ("to", .str m.receiver), ("intent", .str m.intent),
    ("proof", Json.optional m.proof), ("payload", .obj m.payload)]

/-- **The JSON record of a message.** -/
def toJson (m : Message) : Json :=
  .obj (m.summary ++ [("timestamp", .str m.sentAt.text)])

/-- Reads an instant from its text. -/
def readInstant (v : Json) : Except Json.RecordError Instant := do
  match Instant.ofText? (← Json.asString v) with
  | some i => .ok i
  | none => .error .malformed

/-- Reads a payload: an object in its free-form reading. -/
def readPayload (v : Json) : Except Json.RecordError Payload :=
  Json.asFields v.normal

/-- Reads a message. -/
def ofJson (v : Json) : Except Json.RecordError Message := do
  let fields ← Json.asRecord ["from", "to", "intent", "proof", "payload", "timestamp"] [] v
  let sender ← Json.required "from" Json.asString fields
  let receiver ← Json.required "to" Json.asString fields
  let intent ← Json.required "intent" Json.asString fields
  let proof ← Json.defaulted ["proof"] none (Json.asOption Json.asString) fields
  let payload ← Json.required "payload" readPayload fields
  let sentAt ← Json.required "timestamp" readInstant fields
  return { sender, receiver, intent, proof, payload, sentAt }

end Message

/-- **The payload of positional arguments**: each under the name of its parameter. Arguments
without a parameter are dropped, and a parameter without an argument is left out. -/
def ContractOperation.payloadOf (op : ContractOperation) (args : List Json) : Payload :=
  Keyed.ofList (op.parameterNames.zip args)

/-- **The positional arguments of a payload**: for each parameter what stands under its name, or
`null`. -/
def ContractOperation.argumentsOf (op : ContractOperation) (payload : Payload) : List Json :=
  op.parameterNames.map fun n => (Keyed.get? n payload).getD .null

end IntentContract
