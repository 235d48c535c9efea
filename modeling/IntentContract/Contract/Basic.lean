import IntentContract.Definition.Extensions
import IntentContract.Failure

/-!
# Contracts

The **contract** of a document is what its first interface offers: a name, the addresses that give
it a meaning, and its operations, each with its intent, the proof it requires, its parameters and
its result. Everything the library generates is derived from the contract alone.

An operation without a name has no place in a contract. A name declared again replaces the
earlier operation where it stands, so names are unique and come in the order of their first
declaration.
-/

namespace IntentContract

/-- A parameter of an operation. -/
structure Parameter where
  name : String
  type : TypeDescriptor

/-- **An operation of a contract.** -/
structure ContractOperation where
  name : String
  parameters : List Parameter
  returns : Option TypeDescriptor
  extensions : Extensions

namespace ContractOperation

/-- The intent that an operation serves; empty if it declares none. -/
def intent (op : ContractOperation) : String :=
  op.extensions.intent.getD ""

/-- The proof that an operation requires. -/
def proof (op : ContractOperation) : Option String :=
  op.extensions.proof

/-- The names of the parameters, in order. -/
def parameterNames (op : ContractOperation) : List String :=
  op.parameters.map (·.name)

/-- The text of the result's type. -/
def returnText (op : ContractOperation) : String :=
  TypeDescriptor.textOf op.returns

/-- The text of the type that a caller gets in the end. -/
def awaitedText (op : ContractOperation) : String :=
  TypeDescriptor.awaitedTextOf op.returns

/-- The operation that a declaration stands for. -/
def ofDeclaration (op : Operation) : ContractOperation where
  name := op.name
  parameters := op.arguments.map fun a => ⟨a.name, a.type⟩
  returns := op.returns
  extensions := .ofAttributes op.attributes

/-- The custom types in the signature of an operation, in the order they stand there. -/
def customLeaves (op : ContractOperation) : List String :=
  op.parameters.flatMap (·.type.customLeaves)
    ++ (op.returns.map TypeDescriptor.customLeaves).getD []

end ContractOperation

/-- **A contract.** -/
structure Contract where
  name : String
  context : Option String
  semantic : Option String
  operations : List ContractOperation

/-- A row of the registry of intents. -/
structure IntentEntry where
  operation : String
  intent : String
  proof : Option String
  deriving DecidableEq

namespace Contract

/-- A contract without operations. -/
def empty (name : String) : Contract where
  name := name
  context := none
  semantic := none
  operations := []

/-- The operation with a name. -/
def operation? (c : Contract) (name : String) : Option ContractOperation :=
  c.operations.find? fun op => op.name == name

/-- Puts an operation in the place of the first with its name, else at the end. -/
def insertInto (op : ContractOperation) : List ContractOperation → List ContractOperation
  | [] => [op]
  | o :: rest => if o.name = op.name then op :: rest else o :: insertInto op rest

/-- A contract with one more operation. -/
def insert (c : Contract) (op : ContractOperation) : Contract :=
  { c with operations := insertInto op c.operations }

/-- Whether inserting an operation of this name replaces one. -/
def replaces (c : Contract) (name : String) : Bool :=
  (c.operation? name).isSome

/-- The contract of an interface. -/
def ofInterface (i : Interface) : Contract :=
  let ext := Extensions.ofAttributes i.attributes
  let start : Contract :=
    { name := i.name, context := ext.context, semantic := ext.semantic, operations := [] }
  (i.operations.filter fun op => op.name != "").foldl
    (fun c op => c.insert (.ofDeclaration op)) start

/-- **The contract of a document**: that of its first interface. -/
def build (definitions : List Definition) : Except Failure Contract :=
  match Definition.interfaces definitions with
  | [] => .error .noInterface
  | i :: _ => .ok (ofInterface i)

/-- The contract of a source text. -/
def ofSource (source : String) : Except Failure Contract :=
  match parse source with
  | .error e => .error (.parse e)
  | .ok definitions => build definitions

/-- The custom types in all signatures, sorted. -/
def customTypes (c : Contract) : List String :=
  NameSet.ofList (c.operations.flatMap (·.customLeaves))

/-- **The custom types to be declared**: all but the contract's own name. -/
def referencedTypes (c : Contract) : List String :=
  c.customTypes.filter fun n => n != c.name

/-- Whether some signature has the contract's own name as a type. -/
def referencesSelf (c : Contract) : Bool :=
  c.customTypes.contains c.name

/-- **The registry of intents**: a row for each operation, in order. -/
def intents (c : Contract) : List IntentEntry :=
  c.operations.map fun op => ⟨op.name, op.intent, op.proof⟩

/-- The registry's row of an operation. -/
def entry? (c : Contract) (operation : String) : Option IntentEntry :=
  c.intents.find? fun e => e.operation == operation

end Contract

end IntentContract
