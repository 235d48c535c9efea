import IntentContract.Json.Record
import IntentContract.Definition.Basic
import IntentContract.TypeDescriptor.Wire

/-!
# Definitions as JSON

The tree of a document as a JSON array. Definitions and members carry their kind in the field
`type`; a kind the library does not know is a place without content. A field that may be left out
in reading is always written. Everything is written as an object, and may also be read from a list
of its fields, the kind in front.
-/

namespace IntentContract

open Json
  (RecordError Reading asString asBool asName asList asOption asFields asRecord asTagged asNothing
    required defaulted)

/-! ## Writing -/

/-- The JSON value of an attribute's value. -/
def AttributeValue.toJson : AttributeValue → Json
  | .identifier text => .obj [("type", .str "identifier"), ("value", .str text)]
  | .string raw => .obj [("type", .str "string"), ("value", .str raw)]
  | .list names => .obj [("type", .str "identifier-list"), ("value", Json.strings names)]

/-- The JSON value of an extended attribute. -/
def ExtendedAttribute.toJson (a : ExtendedAttribute) : Json :=
  .obj [("name", .str a.name), ("rhs", (a.value.map AttributeValue.toJson).getD .null)]

/-- The JSON value of a list of extended attributes. -/
def ExtendedAttribute.listToJson (attributes : List ExtendedAttribute) : Json :=
  .arr (attributes.map ExtendedAttribute.toJson)

/-- The JSON value of a type that may be absent. -/
def TypeDescriptor.optionToJson (d : Option TypeDescriptor) : Json :=
  (d.map TypeDescriptor.toJson).getD .null

/-- The JSON value of an argument. -/
def Argument.toJson (a : Argument) : Json :=
  .obj [("name", .str a.name), ("idlType", a.type.toJson), ("optional", .bool a.optional),
    ("variadic", .bool a.variadic), ("extAttrs", ExtendedAttribute.listToJson a.attributes)]

/-- The fields an operation is written with. -/
def Operation.toFields (op : Operation) : List (String × Json) :=
  [("name", .str op.name), ("idlType", TypeDescriptor.optionToJson op.returns),
    ("arguments", .arr (op.arguments.map Argument.toJson)),
    ("extAttrs", ExtendedAttribute.listToJson op.attributes)]

/-- The fields an attribute of an interface is written with. -/
def Property.toFields (p : Property) : List (String × Json) :=
  [("name", .str p.name), ("idlType", TypeDescriptor.optionToJson p.type),
    ("readonly", .bool p.readonly), ("extAttrs", ExtendedAttribute.listToJson p.attributes)]

/-- The JSON value of a member. -/
def Member.toJson : Member → Json
  | .operation op => .obj (("type", .str "operation") :: op.toFields)
  | .property p => .obj (("type", .str "attribute") :: p.toFields)
  | .other => .obj [("type", .str "other")]

/-- The JSON value of a dictionary's field. -/
def Field.toJson (f : Field) : Json :=
  .obj [("name", .str f.name), ("idlType", f.type.toJson), ("required", .bool f.required),
    ("extAttrs", ExtendedAttribute.listToJson f.attributes)]

/-- The JSON value of a definition. -/
def Definition.toJson : Definition → Json
  | .interface i =>
    .obj [("type", .str "interface"), ("name", .str i.name),
      ("inheritance", Json.optional i.inherits),
      ("members", .arr (i.members.map Member.toJson)),
      ("extAttrs", ExtendedAttribute.listToJson i.attributes)]
  | .dictionary d =>
    .obj [("type", .str "dictionary"), ("name", .str d.name),
      ("inheritance", Json.optional d.inherits), ("members", .arr (d.fields.map Field.toJson)),
      ("extAttrs", ExtendedAttribute.listToJson d.attributes)]
  | .enumeration e =>
    .obj [("type", .str "enum"), ("name", .str e.name), ("values", Json.strings e.values),
      ("extAttrs", ExtendedAttribute.listToJson e.attributes)]
  | .typedef t =>
    .obj [("type", .str "typedef"), ("name", .str t.name), ("idlType", t.type.toJson),
      ("extAttrs", ExtendedAttribute.listToJson t.attributes)]
  | .other => .obj [("type", .str "other")]

/-- **The JSON value of a document.** -/
def Definition.listToJson (definitions : List Definition) : Json :=
  .arr (definitions.map Definition.toJson)

/-! ## Reading

The kind of an attribute's value may be a record with its name as the only field. What may stand in
that field, `isNothing` says. -/

section

variable (isNothing : Json → Bool)

/-- The kinds of an attribute's value, each at its place. -/
def AttributeValue.kinds : List String := ["identifier", "string", "identifier-list"]

/-- The kind of an attribute's value in front of a list: its name. Where a record without fields is
nothing, it may also be the place among the kinds. -/
def AttributeValue.kindAt : Reading String
  | .str name => .ok name
  | .int n =>
    match kinds[n.toNat]? with
    | some name => if 0 ≤ n ∧ isNothing (.obj []) then .ok name else .error .malformed
    | none => .error .malformed
  | _ => .error .malformed

/-- Reads the content of an attribute's value by its kind. -/
def AttributeValue.ofContent (kind : String) (content : Json) :
    Except RecordError AttributeValue := do
  if kind = "identifier" then return .identifier (← asString content)
  else if kind = "string" then return .string (← asString content)
  else if kind = "identifier-list" then return .list (← asList asString content)
  else .error .malformed

/-- Reads the value of an attribute. -/
def AttributeValue.ofJson : Json → Except RecordError AttributeValue
  | .arr [kind, content] => do ofContent (← kindAt isNothing kind) content
  | v => do
    let fields ← asFields v
    let kind ← required "type" (asName isNothing) fields
    required "value" (ofContent kind) fields

/-- Reads an extended attribute. -/
def ExtendedAttribute.ofJson (v : Json) : Except RecordError ExtendedAttribute := do
  let fields ← asRecord ["name"] ["rhs"] v
  let name ← required "name" asString fields
  let value ← defaulted ["rhs"] none (asOption (AttributeValue.ofJson isNothing)) fields
  return { name, value }

/-- Reads the extended attributes of something. -/
def ExtendedAttribute.ofFields (fields : List (String × Json)) :
    Except RecordError (List ExtendedAttribute) :=
  defaulted ["extAttrs"] [] (asList (ExtendedAttribute.ofJson isNothing)) fields

/-- Reads a type; every value is one. -/
def TypeDescriptor.read : Reading TypeDescriptor := fun v =>
  .ok (TypeDescriptor.ofJson v)

/-- Reads an argument. -/
def Argument.ofJson (v : Json) : Except RecordError Argument := do
  let fields ← asRecord ["name"] ["idlType", "optional", "variadic", "extAttrs"] v
  let name ← required "name" asString fields
  let type ← defaulted ["idlType"] .unknown TypeDescriptor.read fields
  let optional ← defaulted ["optional"] false asBool fields
  let variadic ← defaulted ["variadic"] false asBool fields
  let attributes ← ExtendedAttribute.ofFields isNothing fields
  return { name, type, optional, variadic, attributes }

/-- Reads an operation. -/
def Operation.ofJson (v : Json) : Except RecordError Operation := do
  let fields ← asRecord [] ["name", "idlType", "arguments", "extAttrs"] v
  let name ← defaulted ["name"] "" asString fields
  let returns ← defaulted ["idlType"] none (asOption TypeDescriptor.read) fields
  let arguments ← defaulted ["arguments"] [] (asList (Argument.ofJson isNothing)) fields
  let attributes ← ExtendedAttribute.ofFields isNothing fields
  return { name, returns, arguments, attributes }

/-- Reads an attribute of an interface. -/
def Property.ofJson (v : Json) : Except RecordError Property := do
  let fields ← asRecord ["name"] ["idlType", "readonly", "extAttrs"] v
  let name ← required "name" asString fields
  let type ← defaulted ["idlType"] none (asOption TypeDescriptor.read) fields
  let readonly ← defaulted ["readonly"] false asBool fields
  let attributes ← ExtendedAttribute.ofFields isNothing fields
  return { name, type, readonly, attributes }

/-- The kind of a member: its name, or the place it has among the kinds. -/
def Member.kindOf : Reading String
  | .str name => .ok name
  | .int 0 => .ok "operation"
  | .int 1 => .ok "attribute"
  | .int n => if n < 0 then .error .malformed else .ok "other"
  | _ => .error .malformed

/-- Reads a member by its kind. -/
def Member.ofJson (v : Json) : Except RecordError Member := do
  let (kind, v) ← asTagged Member.kindOf v
  if kind = "operation" then return .operation (← Operation.ofJson isNothing v)
  else if kind = "attribute" then return .property (← Property.ofJson isNothing v)
  else
    asNothing v
    return .other

/-- Reads a field of a dictionary. -/
def Field.ofJson (v : Json) : Except RecordError Field := do
  let fields ← asRecord ["name"] ["idlType", "required", "extAttrs"] v
  let name ← Json.required "name" asString fields
  let type ← defaulted ["idlType"] .unknown TypeDescriptor.read fields
  let required ← defaulted ["required"] false asBool fields
  let attributes ← ExtendedAttribute.ofFields isNothing fields
  return { name, type, required, attributes }

/-- Reads an interface. -/
def Interface.ofJson (v : Json) : Except RecordError Interface := do
  let fields ← asRecord ["name"] ["inheritance", "members", "extAttrs"] v
  let name ← required "name" asString fields
  let inherits ← defaulted ["inheritance"] none (asOption asString) fields
  let members ← defaulted ["members"] [] (asList (Member.ofJson isNothing)) fields
  let attributes ← ExtendedAttribute.ofFields isNothing fields
  return { name, inherits, members, attributes }

/-- Reads a dictionary. -/
def Dictionary.ofJson (v : Json) : Except RecordError Dictionary := do
  let fields ← asRecord ["name"] ["inheritance", "members", "extAttrs"] v
  let name ← required "name" asString fields
  let inherits ← defaulted ["inheritance"] none (asOption asString) fields
  let members ← defaulted ["members"] [] (asList (Field.ofJson isNothing)) fields
  let attributes ← ExtendedAttribute.ofFields isNothing fields
  return { name, inherits, fields := members, attributes }

/-- Reads an enumeration. -/
def Enumeration.ofJson (v : Json) : Except RecordError Enumeration := do
  let fields ← asRecord ["name"] ["values", "extAttrs"] v
  let name ← required "name" asString fields
  let values ← defaulted ["values"] [] (asList asString) fields
  let attributes ← ExtendedAttribute.ofFields isNothing fields
  return { name, values, attributes }

/-- Reads a name for a type. -/
def Typedef.ofJson (v : Json) : Except RecordError Typedef := do
  let fields ← asRecord ["name"] ["idlType", "extAttrs"] v
  let name ← required "name" asString fields
  let type ← defaulted ["idlType"] .unknown TypeDescriptor.read fields
  let attributes ← ExtendedAttribute.ofFields isNothing fields
  return { name, type, attributes }

/-- Reads a definition by its kind. -/
def Definition.ofJson (v : Json) : Except RecordError Definition := do
  let (kind, v) ← asTagged asString v
  if kind = "interface" then return .interface (← Interface.ofJson isNothing v)
  else if kind = "dictionary" then return .dictionary (← Dictionary.ofJson isNothing v)
  else if kind = "enum" then return .enumeration (← Enumeration.ofJson isNothing v)
  else if kind = "typedef" then return .typedef (← Typedef.ofJson isNothing v)
  else
    asNothing v
    return .other

end

/-- What counts as nothing within a document: `null`, and a record without fields. -/
def Definition.isNothing : Json → Bool
  | .null => true
  | .obj [] => true
  | _ => false

/-- **Reads a JSON value as a document.** -/
def Definition.listOfJson : Reading (List Definition) :=
  asList (Definition.ofJson Definition.isNothing)

end IntentContract
