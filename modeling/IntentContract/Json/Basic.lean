import IntentContract.Keyed
import IntentContract.Number.Double

/-!
# JSON values

Documents, payloads and handler results are JSON values. Whole numbers and doubles are kept
apart, since only the former can be a count of milliseconds and each has its own text. The fields
of an object stand in the order they are written in.

A value that comes from a text may hold a key twice and its fields in any order. `Json.normal`
gives the **free-form reading** of it: fields in the order of their keys, and of a repeated key
the last.
-/

namespace IntentContract

/-- **A JSON value.** -/
inductive Json where
  | null
  | bool (b : Bool)
  | int (n : Int)
  | double (x : Double)
  | str (s : String)
  | arr (items : List Json)
  | obj (fields : List (String × Json))
  deriving Inhabited

namespace Json

/-- The value of an object's field; none for a value that is no object. -/
def get? (key : String) : Json → Option Json
  | .obj fields => Keyed.get? key fields
  | _ => none

/-- Whether a value is `null`. -/
def isNull : Json → Bool
  | .null => true
  | _ => false

/-- The text of a string. -/
def string? : Json → Option String
  | .str s => some s
  | _ => none

/-- A number as a double; a whole number is rounded to the nearest one. -/
def number? : Json → Option Double
  | .int n => some (.ofInt n)
  | .double x => some x
  | _ => none

/-- What a value is called in a message. -/
def kindName : Json → String
  | .null => "null"
  | .bool _ => "a boolean"
  | .int _ => "a number"
  | .double _ => "a number"
  | .str _ => "a string"
  | .arr _ => "an array"
  | .obj _ => "an object"

/-- The list of strings as a JSON array. -/
def strings (names : List String) : Json :=
  .arr (names.map .str)

/-- A string, or `null` where there is none. -/
def optional : Option String → Json
  | none => .null
  | some s => .str s

mutual

/-- **The free-form reading**: at every depth, fields in the order of their keys and of a
repeated key the last. -/
def normal : Json → Json
  | .arr items => .arr (normalItems items)
  | .obj fields => .obj (normalFields fields [])
  | .null => .null
  | .bool b => .bool b
  | .int n => .int n
  | .double x => .double x
  | .str s => .str s

/-- The free-form reading of each item. -/
def normalItems : List Json → List Json
  | [] => []
  | v :: rest => normal v :: normalItems rest

/-- The fields read in turn into those read before. -/
def normalFields : List (String × Json) → List (String × Json) → List (String × Json)
  | [], done => done
  | (k, v) :: rest, done => normalFields rest (Keyed.insert k (normal v) done)

end

end Json

end IntentContract
