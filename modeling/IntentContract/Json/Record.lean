import IntentContract.Json.Basic

/-!
# Reading records from JSON

A record is read from an object by the names of its fields. Fields the record does not know are
passed over. A field that may be missing has a default or is optional; `null` counts as missing
for an optional field and is refused for every other. A field given twice, or once under each of
two spellings, is refused.

A record is also read from a list, whose items are its fields in order. The list may end early if
all fields behind its end have a default, and it may not go on behind the last field.

A `RecordReader` keeps the names of the fields it takes, so that it can be told which fields of a
text matter. Of several faults the first in the text decides, and a field that is missing is only
noticed at the end.
-/

namespace IntentContract.Json

/-- Why a value is not the record looked for. -/
inductive RecordError where
  /-- A field without a default is missing in an object. -/
  | missingField (name : String)
  /-- Some value has the wrong shape, a field is given twice, or a list has the wrong length. -/
  | malformed
  deriving DecidableEq

/-- The reading of a value as some type. -/
abbrev Reading (α : Type) := Json → Except RecordError α

/-- A string. -/
def asString : Reading String
  | .str s => .ok s
  | _ => .error .malformed

/-- A truth value. -/
def asBool : Reading Bool
  | .bool b => .ok b
  | _ => .error .malformed

/-- A number, rounded to a double. -/
def asDouble (v : Json) : Except RecordError Double :=
  match v.number? with
  | some x => .ok x
  | none => .error .malformed

/-- A list whose items are read one by one. -/
def asList {α : Type} (item : Reading α) : Reading (List α)
  | .arr items => items.mapM item
  | _ => .error .malformed

/-- A value read by `item`, or `null` for none. -/
def asOption {α : Type} (item : Reading α) : Reading (Option α)
  | .null => .ok none
  | v => (item v).map some

/-- A name out of a closed choice: the text of it, or a record with the name as its only field and
nothing in it. What counts as nothing is a matter of the format that the value comes from. -/
def asName (isNothing : Json → Bool) : Reading String
  | .str name => .ok name
  | .obj [(name, v)] => if isNothing v then .ok name else .error .malformed
  | _ => .error .malformed

/-- The fields of an object. -/
def asFields : Reading (List (String × Json))
  | .obj fields => .ok fields
  | _ => .error .malformed

/-- **The fields of a record**: those of an object, or the items of a list under the names of the
fields in order. A list has an item for each name in `front`, and may end early among those in
`back`. -/
def asRecord (front back : List String) : Reading (List (String × Json))
  | .obj fields => .ok fields
  | .arr items =>
    if front.length ≤ items.length ∧ items.length ≤ (front ++ back).length then
      .ok ((front ++ back).zip items)
    else .error .malformed
  | _ => .error .malformed

/-- Any value, in its free-form reading. -/
def asFreeForm (v : Json) : Except RecordError Json :=
  .ok v.normal

/-- The one field with one of the given names, if there is any. -/
def findField (names : List String) (fields : List (String × Json)) :
    Except RecordError (Option Json) :=
  match fields.filter fun f => names.contains f.1 with
  | [] => .ok none
  | [f] => .ok (some f.2)
  | _ => .error .malformed

/-- A field that must be there. -/
def required {α : Type} (name : String) (read : Reading α) (fields : List (String × Json)) :
    Except RecordError α := do
  match ← findField [name] fields with
  | none => .error (.missingField name)
  | some v => read v

/-- A field that has a default, under any of its spellings. -/
def defaulted {α : Type} (names : List String) (fallback : α) (read : Reading α)
    (fields : List (String × Json)) : Except RecordError α := do
  match ← findField names fields with
  | none => .ok fallback
  | some v => read v

/-- **Something of a kind**: the kind, and what there is of that kind. An object has the kind in its
field `type`, a list as its first item. -/
def asTagged (kind : Reading String) : Reading (String × Json)
  | .obj fields => return (← required "type" kind fields, .obj fields)
  | .arr (v :: items) => return (← kind v, .arr items)
  | .arr [] => .error (.missingField "type")
  | _ => .error .malformed

/-- Something without content: an object, all of whose fields are passed over, or a list without
items. -/
def asNothing : Reading Unit
  | .obj _ => .ok ()
  | .arr [] => .ok ()
  | _ => .error .malformed

/-! ## Readers -/

/-- **How a record is read** from its fields. -/
structure RecordReader (α : Type) where
  /-- The spellings of each field it takes, in the order of the fields. -/
  spellings : List (List String)
  /-- What is wrong with the value of a field, if anything. -/
  fault? : String → Json → Option RecordError
  /-- The record with the given fields. -/
  make : List (String × Json) → Except RecordError α

namespace RecordReader

/-- A record that takes no fields. -/
def const {α : Type} (a : α) : RecordReader α where
  spellings := []
  fault? _ _ := none
  make _ := .ok a

/-- A record made of two, each with the fields it takes. -/
def combine {α β : Type} (f : RecordReader (α → β)) (r : RecordReader α) : RecordReader β where
  spellings := f.spellings ++ r.spellings
  fault? name v := (f.fault? name v).or (r.fault? name v)
  make fields := do return (← f.make fields) (← r.make fields)

instance : Applicative RecordReader where
  pure := const
  seq f r := combine f (r ())

/-- A record of one field with any of the given names, made by `make`. -/
def ofField {α : Type} (names : List String) (read : Reading α)
    (make : List (String × Json) → Except RecordError α) : RecordReader α where
  spellings := [names]
  fault? name v :=
    if names.contains name then
      match read v with
      | .ok _ => none
      | .error e => some e
    else none
  make

/-- A field that must be there. -/
def required {α : Type} (name : String) (read : Reading α) : RecordReader α :=
  ofField [name] read (Json.required name read)

/-- A field that has a default, under any of its spellings. -/
def defaulted {α : Type} (names : List String) (fallback : α) (read : Reading α) :
    RecordReader α :=
  ofField names read (Json.defaulted names fallback read)

/-- What is wrong with the first field that has a fault. -/
def firstFault? {α : Type} (r : RecordReader α) (fields : List (String × Json)) :
    Option RecordError :=
  fields.findSome? fun f => r.fault? f.1 f.2

/-- The names of the fields in order, each in its first spelling. -/
def order {α : Type} (r : RecordReader α) : List String :=
  r.spellings.filterMap List.head?

/-- **Reads a record** from an object or from a list. The first field with a fault decides, and if
there is none the first field that is missing, or the length of the list. -/
def read {α : Type} (r : RecordReader α) : Reading α
  | .obj fields =>
    match r.firstFault? fields with
    | some e => .error e
    | none => r.make fields
  | .arr items =>
    let fields := r.order.zip items
    match r.firstFault? fields with
    | some e => .error e
    | none =>
      if items.length ≤ r.order.length then (r.make fields).mapError fun _ => .malformed
      else .error .malformed
  | _ => .error .malformed

/-- Whether a record takes a field. -/
def takes {α : Type} (r : RecordReader α) (name : String) : Bool :=
  r.spellings.flatten.contains name

end RecordReader

end IntentContract.Json
