import IntentContract.Json.Basic
import IntentContract.TypeDescriptor.Basic

/-!
# Descriptors as JSON

A descriptor is written as a name, an array of alternatives, or an object around an inner
`idlType`, marked as `generic` or `nullable`. Reading never fails: a value of no such shape is the
unknown type.
-/

namespace IntentContract.TypeDescriptor

mutual

/-- **The JSON value of a descriptor.** -/
def toJson : TypeDescriptor → Json
  | .primitive name => .str name
  | .union members => .arr (toJsons members)
  | .generic kind args => .obj [("generic", .str kind), ("idlType", .arr (toJsons args))]
  | .nullable inner => .obj [("nullable", .bool true), ("idlType", toJson inner)]
  | .unknown => .null

/-- The JSON values of a list of descriptors. -/
def toJsons : List TypeDescriptor → List Json
  | [] => []
  | d :: rest => toJson d :: toJsons rest

end

/-- The kind an object gives for its type: none without or with an empty `generic`. The outer
option is none if `generic` is no string. -/
def kindOf (fields : List (String × Json)) : Option (Option String) :=
  match Keyed.get? "generic" fields with
  | none => some none
  | some .null => some none
  | some (.str kind) => some (if kind = "" then none else some kind)
  | some _ => none

/-- Whether an object marks its type as nullable; none if the mark is no truth value. -/
def nullableOf (fields : List (String × Json)) : Option Bool :=
  match Keyed.get? "nullable" fields with
  | none => some false
  | some (.bool b) => some b
  | some _ => none

/-- Whether the inner type of an object is given as an array. -/
def innerIsList (fields : List (String × Json)) : Bool :=
  match Keyed.get? "idlType" fields with
  | some (.arr _) => true
  | _ => false

/-- The arguments of a generic from its inner type: the members if that was an array, else the
type itself. -/
def argumentsOf (isList : Bool) (inner : TypeDescriptor) : List TypeDescriptor :=
  match isList, inner with
  | true, .union members => members
  | _, d => [d]

/-- A descriptor from what an object says about its type. -/
def ofNode (kind : Option String) (isNullable isList : Bool) (inner : TypeDescriptor) :
    TypeDescriptor :=
  let base := match kind with
    | some kind => .generic kind (argumentsOf isList inner)
    | none => inner
  if isNullable then .nullable base else base

mutual

/-- **The descriptor a JSON value stands for.** -/
def ofJson : Json → TypeDescriptor
  | .str name => .primitive name
  | .arr items => .union (ofJsons items)
  | .obj fields =>
    match kindOf fields, nullableOf fields, innerOf fields with
    | some kind, some isNullable, some inner => ofNode kind isNullable (innerIsList fields) inner
    | _, _, _ => .unknown
  | .null => .unknown
  | .bool _ => .unknown
  | .int _ => .unknown
  | .double _ => .unknown

/-- The descriptors that a list of values stands for. -/
def ofJsons : List Json → List TypeDescriptor
  | [] => []
  | v :: rest => ofJson v :: ofJsons rest

/-- The inner type of an object, if it gives one. -/
def innerOf : List (String × Json) → Option TypeDescriptor
  | [] => none
  | (key, v) :: rest => if key = "idlType" then some (ofJson v) else innerOf rest

end

end IntentContract.TypeDescriptor
