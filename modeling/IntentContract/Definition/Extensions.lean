import IntentContract.Definition.Basic

/-!
# Reading extended attributes

The library gives a meaning to six extended attributes. Of several attributes with one name the
first counts, and it has a value only if that is a name or a string: a flag and a list of names
have none.
-/

namespace IntentContract

/-- The content of a text in double quotes; any other text as it is. -/
def unquote (raw : String) : String :=
  match raw.toList with
  | '"' :: rest =>
    match rest.reverse with
    | '"' :: content => String.ofList content.reverse
    | _ => raw
  | _ => raw

/-- The text an attribute's value gives. -/
def AttributeValue.text? : AttributeValue → Option String
  | .identifier text => some text
  | .string raw => some (unquote raw)
  | .list _ => none

namespace ExtendedAttribute

/-- **The value of an attribute by name.** -/
def read (attributes : List ExtendedAttribute) (name : String) : Option String := do
  let a ← attributes.find? fun a => a.name == name
  let value ← a.value
  value.text?

/-- Whether an attribute is given, with or without a value. -/
def has (attributes : List ExtendedAttribute) (name : String) : Bool :=
  attributes.any fun a => a.name == name

end ExtendedAttribute

/-- **What the extended attributes say**, as far as the library reads them. -/
structure Extensions where
  /-- The address of the linked-data context. -/
  context : Option String
  /-- The class that the interface is an instance of. -/
  semantic : Option String
  /-- The intent that an operation serves. -/
  intent : Option String
  /-- The proof that an operation requires. -/
  proof : Option String
  /-- Whether a delegation is required. -/
  delegation : Bool
  /-- The capability that an operation requires. -/
  capability : Option String
  deriving DecidableEq

namespace Extensions

/-- The names of the attributes with a meaning. -/
def recognized : List String :=
  ["Context", "Semantic", "Intent", "Proof", "Delegation", "Capability"]

/-- What a list of attributes says. -/
def ofAttributes (attributes : List ExtendedAttribute) : Extensions where
  context := ExtendedAttribute.read attributes "Context"
  semantic := ExtendedAttribute.read attributes "Semantic"
  intent := ExtendedAttribute.read attributes "Intent"
  proof := ExtendedAttribute.read attributes "Proof"
  delegation := ExtendedAttribute.has attributes "Delegation"
  capability := ExtendedAttribute.read attributes "Capability"

end Extensions

end IntentContract
