import IntentContract.Json.Basic
import IntentContract.Toml.Moment

/-!
# Values of a TOML document

A document can write numbers of any size, but only so large ones can be used. A document that holds
a larger one is well formed all the same, and its other values are as good as ever: `toJson?` asks
for the value of a part of it, and fails only if that part holds such a number.
-/

namespace IntentContract.Toml

/-- **A value of a document.** -/
inductive Value where
  | text (s : String)
  | truth (b : Bool)
  | whole (n : Int)
  /-- A number with a fraction or an exponent, rounded. -/
  | fractional (x : Double)
  /-- A word for an infinity or for what is not a number. -/
  | special (negative : Bool)
  | moment (m : Moment)
  | list (items : List Value)
  | table (fields : List (String × Value))

namespace Value

/-- A list without the items behind its first `count`, and any other value as it is. -/
def front (count : Nat) : Value → Value
  | .list items => .list (items.take count)
  | v => v

/-- A whole number that is not too large. -/
def integer? (n : Int) : Option Json :=
  if -(Nat.pow 2 127 : Int) ≤ n && n < (Nat.pow 2 128 : Int) then some (.int n) else none

/-- A double that is not infinite. -/
def finite? : Double → Option Json
  | .infinite _ => none
  | x => some (.double x)

/-- The name that the text of a date stands under. -/
def momentName : String := "$__toml_private_datetime"

mutual

/-- **The JSON value**, if no number in it is too large. Not a number has no value of its own among
the doubles and counts as an infinity; a date is a record of its text. -/
def toJson? : Value → Option Json
  | .text s => some (.str s)
  | .truth b => some (.bool b)
  | .whole n => integer? n
  | .fractional x => finite? x
  | .special negative => some (.double (.infinite negative))
  | .moment m => some (.obj [(momentName, .str m.text)])
  | .list items => (itemsToJson? items).map .arr
  | .table fields => (fieldsToJson? fields).map .obj

/-- The JSON values of the items of a list. -/
def itemsToJson? : List Value → Option (List Json)
  | [] => some []
  | v :: rest => do return (← toJson? v) :: (← itemsToJson? rest)

/-- The JSON values of the fields of a table. -/
def fieldsToJson? : List (String × Value) → Option (List (String × Json))
  | [] => some []
  | (k, v) :: rest => do return (k, ← toJson? v) :: (← fieldsToJson? rest)

end

end Value

end IntentContract.Toml
