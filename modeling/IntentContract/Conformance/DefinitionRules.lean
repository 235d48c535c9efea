import IntentContract.Conformance.Finding
import IntentContract.Definition.Extensions
import IntentContract.Failure

/-!
# Rules for definitions

Which extended attributes a definition may have and must have, and which operations must take a
delegation. Every interface of a document is checked, with all its operations.
-/

namespace IntentContract

/-- **The rules of a definition check.** -/
structure DefinitionRules where
  /-- The attributes that may be given. -/
  allowed : List String
  /-- The attributes that every interface must have a value of. -/
  requiredOfInterface : List String
  /-- The attributes that every operation must have a value of. -/
  requiredOfOperation : List String
  /-- The attribute by which an operation asks for a delegation. -/
  delegationAttribute : String
  /-- The type of the parameter that such an operation must take. -/
  delegationType : String
  deriving DecidableEq

namespace DefinitionRules

/-- **The usual rules**: the recognized attributes, and an intent for every operation. -/
def usual : DefinitionRules where
  allowed := Extensions.recognized
  requiredOfInterface := []
  requiredOfOperation := ["Intent"]
  delegationAttribute := "Delegation"
  delegationType := "DelegationContext"

/-- The attributes that may not be given. -/
def checkAllowed (rules : DefinitionRules) (attributes : List ExtendedAttribute)
    (location : String) : List Finding :=
  (attributes.filter fun a => !rules.allowed.contains a.name).map fun a =>
    .error .unknownAttribute location ("unknown extension attribute '" ++ a.name ++ "'")

/-- The required attributes without a value. -/
def checkRequired (required : List String) (attributes : List ExtendedAttribute)
    (location : String) : List Finding :=
  (required.filter fun n => (ExtendedAttribute.read attributes n).isNone).map fun n =>
    .error .missingAttribute location
      ("required attribute '" ++ n ++ "' is missing or has no value")

/-- Whether an operation takes a parameter of the delegation type. -/
def takesDelegation (rules : DefinitionRules) (op : Operation) : Bool :=
  op.arguments.any fun a => a.type.name? == some rules.delegationType

/-- An operation that asks for a delegation and takes none. -/
def checkDelegation (rules : DefinitionRules) (op : Operation) (location : String) :
    List Finding :=
  if ExtendedAttribute.has op.attributes rules.delegationAttribute && !rules.takesDelegation op then
    [.error .missingDelegationParameter location
      ("operation declares [" ++ rules.delegationAttribute ++ "] but takes no '"
        ++ rules.delegationType ++ "' parameter")]
  else []

/-- Where an operation is. -/
def locationOf (interface : String) (op : Operation) : String :=
  interface ++ "." ++ (if op.name = "" then "<anonymous>" else op.name)

/-- A name declared before. -/
def checkDuplicate (seen : List String) (op : Operation) (location : String) : List Finding :=
  if op.name != "" && seen.contains op.name then
    [.warning .duplicateOperation location
      ("operation '" ++ op.name ++ "' is declared more than once; the last declaration wins")]
  else []

/-- The findings about the operations of an interface; `seen` are the names in front. -/
def checkOperations (rules : DefinitionRules) (interface : String) (seen : List String) :
    List Operation → List Finding
  | [] => []
  | op :: rest =>
    let location := locationOf interface op
    rules.checkAllowed op.attributes location
      ++ checkRequired rules.requiredOfOperation op.attributes location
      ++ rules.checkDelegation op location
      ++ checkDuplicate seen op location
      ++ rules.checkOperations interface (op.name :: seen) rest

/-- The findings about an interface. -/
def checkInterface (rules : DefinitionRules) (i : Interface) : List Finding :=
  rules.checkAllowed i.attributes i.name
    ++ checkRequired rules.requiredOfInterface i.attributes i.name
    ++ rules.checkOperations i.name [] i.operations

/-- **Checks a document** against rules. -/
def check (rules : DefinitionRules) (definitions : List Definition) : Except Failure Report :=
  match Definition.interfaces definitions with
  | [] => .error .noInterface
  | interfaces => .ok ⟨interfaces.flatMap rules.checkInterface⟩

/-! ## Records -/

/-- The JSON record of rules. -/
def toJson (rules : DefinitionRules) : Json :=
  .obj [("allowed_attributes", Json.strings rules.allowed),
    ("required_interface_attributes", Json.strings rules.requiredOfInterface),
    ("required_operation_attributes", Json.strings rules.requiredOfOperation),
    ("delegation_attribute", .str rules.delegationAttribute),
    ("delegation_parameter_type", .str rules.delegationType)]

/-- How rules are read; a field that is missing is as in the usual rules. -/
def reader : Json.RecordReader DefinitionRules :=
  let names := Json.asList Json.asString
  DefinitionRules.mk
    <$> .defaulted ["allowed_attributes", "allowedAttributes"] usual.allowed names
    <*> .defaulted ["required_interface_attributes", "requiredInterfaceAttributes"]
      usual.requiredOfInterface names
    <*> .defaulted ["required_operation_attributes", "requiredOperationAttributes"]
      usual.requiredOfOperation names
    <*> .defaulted ["delegation_attribute", "delegationAttribute"]
      usual.delegationAttribute Json.asString
    <*> .defaulted ["delegation_parameter_type", "delegationParameterType"]
      usual.delegationType Json.asString

/-- Reads rules from a JSON value. -/
def ofJson : Json.Reading DefinitionRules :=
  reader.read

end DefinitionRules

end IntentContract
