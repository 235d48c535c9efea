import IntentContract.NameSet
import IntentContract.Text.Join

/-!
# Type descriptors

The types of a definition form a tree: names, unions, generics with their arguments, and nullable
types. A descriptor has a **text** in the generated code, where a nullable type is its inner type,
a union lists its members with bars between them, and a name of the definition language's own
types becomes `boolean`, `number` or `string`. Every other name stands for itself; those the
target does not have already are the **custom types** a descriptor refers to.
-/

namespace IntentContract

/-- **A type descriptor.** -/
inductive TypeDescriptor where
  /-- A name, of a primitive or of any other type. -/
  | primitive (name : String)
  /-- Alternatives, in the order they are given. -/
  | union (members : List TypeDescriptor)
  /-- A generic applied to its arguments. -/
  | generic (kind : String) (args : List TypeDescriptor)
  /-- A type with a null value. -/
  | nullable (inner : TypeDescriptor)
  /-- A type that could not be read. -/
  | unknown
  deriving Inhabited

namespace TypeDescriptor

/-- The name of a named type, also of a nullable one. -/
def name? : TypeDescriptor → Option String
  | .primitive name => some name
  | .nullable inner => inner.name?
  | _ => none

/-- The names of the numeric primitives. -/
def numericNames : List String :=
  ["byte", "octet", "short", "unsigned short", "long", "unsigned long", "long long",
    "unsigned long long", "float", "unrestricted float", "double", "unrestricted double"]

/-- The names of the text primitives. -/
def textNames : List String :=
  ["DOMString", "ByteString", "USVString"]

/-- The target's name for a primitive; none for a name that is no primitive. -/
def targetName? (name : String) : Option String :=
  if name = "boolean" then some "boolean"
  else if numericNames.contains name then some "number"
  else if textNames.contains name then some "string"
  else none

/-- Names that the target defines itself. -/
def builtinNames : List String :=
  ["any", "void", "undefined", "object", "null", "unknown", "bigint", "symbol", "Promise", "Array"]

/-- Whether a name is one that generated code must declare. -/
def isCustomName (name : String) : Bool :=
  (targetName? name).isNone && !builtinNames.contains name

/-- The text of a type that is absent or unknown. -/
def anyText : String := "any"

/-- What stands between alternatives, and between the arguments of a generic. -/
def barText : String := " | "

/-- The target's name for a generic. -/
def targetKind (kind : String) : String :=
  if kind = "sequence" then "Array" else kind

mutual

/-- **The text of a descriptor** in generated code. -/
def text : TypeDescriptor → String
  | .primitive name => (targetName? name).getD name
  | .union members => Text.join barText (texts members)
  | .generic kind args =>
    let inner := if args.isEmpty then anyText else Text.join barText (texts args)
    targetKind kind ++ "<" ++ inner ++ ">"
  | .nullable inner => text inner
  | .unknown => anyText

/-- The texts of a list of descriptors. -/
def texts : List TypeDescriptor → List String
  | [] => []
  | d :: rest => text d :: texts rest

end

/-- The text of a descriptor that may be absent. -/
def textOf : Option TypeDescriptor → String
  | none => anyText
  | some d => d.text

/-- **The text of the type a caller gets in the end**: what a promise promises, and any other type
itself. -/
def awaitedText : TypeDescriptor → String
  | .generic kind args =>
    if kind = "Promise" then
      if args.isEmpty then anyText else Text.join barText (texts args)
    else text (.generic kind args)
  | .nullable inner => inner.awaitedText
  | d => d.text

/-- The awaited text of a descriptor that may be absent. -/
def awaitedTextOf : Option TypeDescriptor → String
  | none => anyText
  | some d => d.awaitedText

mutual

/-- The names at the leaves of a descriptor, from left to right. -/
def leaves : TypeDescriptor → List String
  | .primitive name => [name]
  | .union members => leavesOf members
  | .generic _ args => leavesOf args
  | .nullable inner => leaves inner
  | .unknown => []

/-- The names at the leaves of a list of descriptors. -/
def leavesOf : List TypeDescriptor → List String
  | [] => []
  | d :: rest => leaves d ++ leavesOf rest

end

/-- The custom types at the leaves of a descriptor, from left to right. -/
def customLeaves (d : TypeDescriptor) : List String :=
  d.leaves.filter isCustomName

/-- **The custom types** that a descriptor refers to, sorted. -/
def referenced (d : TypeDescriptor) : List String :=
  NameSet.ofList d.customLeaves

end TypeDescriptor

end IntentContract
