import IntentContract.TypeDescriptor.Basic

/-!
# Interface definitions

The tree a definition document stands for: interfaces with their members, dictionaries,
enumerations and type names, each with its **extended attributes**. What the library has no use
for – constants, and whatever other kinds of definitions there are – is kept as a place without
content, so that the order of the rest is that of the document.
-/

namespace IntentContract

/-- The value of an extended attribute. -/
inductive AttributeValue where
  /-- A name, a number, or names joined by colons. -/
  | identifier (text : String)
  /-- A string literal, with its quotes. -/
  | string (raw : String)
  /-- Names in parentheses. -/
  | list (names : List String)
  deriving DecidableEq

/-- **An extended attribute**: a name, and a value if it has one. -/
structure ExtendedAttribute where
  name : String
  value : Option AttributeValue
  deriving DecidableEq

/-- An argument of an operation. -/
structure Argument where
  name : String
  type : TypeDescriptor
  optional : Bool
  variadic : Bool
  attributes : List ExtendedAttribute

/-- **An operation** of an interface. A special operation may have the empty name. -/
structure Operation where
  name : String
  returns : Option TypeDescriptor
  arguments : List Argument
  attributes : List ExtendedAttribute

/-- An attribute of an interface. -/
structure Property where
  name : String
  type : Option TypeDescriptor
  readonly : Bool
  attributes : List ExtendedAttribute

/-- A member of an interface. -/
inductive Member where
  | operation (op : Operation)
  | property (p : Property)
  | other

/-- **An interface.** -/
structure Interface where
  name : String
  inherits : Option String
  members : List Member
  attributes : List ExtendedAttribute

/-- A field of a dictionary. -/
structure Field where
  name : String
  type : TypeDescriptor
  required : Bool
  attributes : List ExtendedAttribute

/-- A dictionary. -/
structure Dictionary where
  name : String
  inherits : Option String
  fields : List Field
  attributes : List ExtendedAttribute

/-- An enumeration of texts. -/
structure Enumeration where
  name : String
  values : List String
  attributes : List ExtendedAttribute

/-- A name for a type. -/
structure Typedef where
  name : String
  type : TypeDescriptor
  attributes : List ExtendedAttribute

/-- **A definition** of a document. -/
inductive Definition where
  | interface (i : Interface)
  | dictionary (d : Dictionary)
  | enumeration (e : Enumeration)
  | typedef (t : Typedef)
  | other

/-- The operation that a member is. -/
def Member.operation? : Member → Option Operation
  | .operation op => some op
  | _ => none

/-- The operations of an interface, in the order of the document. -/
def Interface.operations (i : Interface) : List Operation :=
  i.members.filterMap Member.operation?

namespace Definition

/-- The name of a definition. -/
def name? : Definition → Option String
  | .interface i => some i.name
  | .dictionary d => some d.name
  | .enumeration e => some e.name
  | .typedef t => some t.name
  | .other => none

/-- The interface that a definition is. -/
def interface? : Definition → Option Interface
  | .interface i => some i
  | _ => none

/-- The interfaces of a document, in its order. -/
def interfaces (definitions : List Definition) : List Interface :=
  definitions.filterMap interface?

theorem mem_interfaces_iff {ds : List Definition} {i : Interface} :
    i ∈ interfaces ds ↔ .interface i ∈ ds := by
  rw [interfaces, List.mem_filterMap]
  constructor
  · rintro ⟨d, hd, hi⟩
    cases d with
    | interface j =>
      obtain rfl := Option.some.inj hi
      exact hd
    | dictionary | enumeration | typedef | other => cases hi
  · intro hi
    exact ⟨_, hi, rfl⟩

theorem interfaces_eq_nil_iff {ds : List Definition} :
    interfaces ds = [] ↔ ∀ i, .interface i ∉ ds := by
  rw [List.eq_nil_iff_forall_not_mem]
  exact forall_congr' fun i => not_congr mem_interfaces_iff

/-- Interfaces with a first one are in the order of the document. -/
theorem interfaces_append_cons {before after : List Definition} {i : Interface}
    (h : ∀ j, .interface j ∉ before) :
    interfaces (before ++ .interface i :: after) = i :: interfaces after := by
  rw [interfaces, List.filterMap_append, ← interfaces, interfaces_eq_nil_iff.mpr h]
  rfl

end Definition

end IntentContract
