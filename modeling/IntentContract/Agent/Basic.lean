import IntentContract.Agent.Message
import IntentContract.Text.Quoted

/-!
# Agents

An agent has an identity, a contract, and a table of **handlers** by intent. A message goes to the
handler that was bound last to its intent. What a handler does is left open: it answers in a monad
`m`, in which it may keep a state of its own.
-/

namespace IntentContract

/-- **A handler**: an answer to a message, or a failure. -/
abbrev Handler (m : Type → Type) := Message → ExceptT Failure m Json

/-- A handler that takes positional arguments besides the message. -/
abbrev OperationHandler (m : Type → Type) := List Json → Message → ExceptT Failure m Json

/-- **An agent**, with its handlers in the order of their intents. -/
structure Agent (m : Type → Type) where
  id : String
  contract : Contract
  handlers : List (String × Handler m)

namespace Agent

variable {m : Type → Type}

/-- An agent without handlers. -/
def new (id : String) (contract : Contract) : Agent m :=
  { id, contract, handlers := [] }

/-- Binds a handler to an intent, in place of an earlier one. -/
def bind (a : Agent m) (intent : String) (h : Handler m) : Agent m :=
  { a with handlers := Keyed.insert intent h a.handlers }

/-- The handler of messages that hands on their payload as positional arguments. -/
def positional (op : ContractOperation) (h : OperationHandler m) : Handler m := fun msg =>
  h (op.argumentsOf msg.payload) msg

/-- Binds a handler to the intent of an operation in the agent's contract. -/
def bindOperation (a : Agent m) (operation : String) (h : OperationHandler m) :
    Except Failure (Agent m) :=
  match a.contract.operation? operation with
  | none => .error (.unknownMethod operation)
  | some op => .ok (a.bind op.intent (positional op h))

/-- The handler bound to an intent. -/
def handler? (a : Agent m) (intent : String) : Option (Handler m) :=
  Keyed.get? intent a.handlers

/-- Whether an intent has a handler. -/
def handles (a : Agent m) (intent : String) : Bool :=
  (a.handler? intent).isSome

/-- Whether some intent has a handler. -/
def isReady (a : Agent m) : Bool :=
  !a.handlers.isEmpty

/-- **Delivers a message** to the handler of its intent. -/
def receive [Monad m] (a : Agent m) (msg : Message) : ExceptT Failure m Json :=
  match a.handler? msg.intent with
  | some h => h msg
  | none => throw (.unhandledIntent a.id msg.intent)

/-- Sends an intent to another agent. -/
def invoke [Monad m] (a target : Agent m) (now : Instant) (intent : String) (payload : Payload)
    (proof : Option String) : ExceptT Failure m Json :=
  target.receive { sender := a.id, receiver := target.id, intent, proof, payload, sentAt := now }

/-- Sends an operation of a contract to another agent, with positional arguments. -/
def send [Monad m] (a target : Agent m) (now : Instant) (contract : Contract) (operation : String)
    (args : List Json) : ExceptT Failure m Json :=
  match contract.operation? operation with
  | none => throw (.unknownMethod operation)
  | some op => a.invoke target now op.intent (op.payloadOf args) op.proof

/-- **Calls an operation** of the agent's own contract on another agent. -/
def call [Monad m] (a target : Agent m) (now : Instant) (operation : String) (args : List Json) :
    ExceptT Failure m Json :=
  a.send target now a.contract operation args

/-- The state of an agent for diagnostics. -/
def describe (a : Agent m) : String :=
  "Agent \x7b id: " ++ Text.visible a.id ++ ", interface: " ++ Text.visible a.contract.name
    ++ ", intents: " ++ Text.visibleList (a.handlers.map (·.1)) ++ " \x7d"

end Agent

end IntentContract
