import IntentContract.Text.Digits
import IntentContract.Text.Hex
import IntentContract.Number.Decimal
import IntentContract.Json.Basic

/-!
# The text of JSON values

The compact text has no blanks; the indented one puts each item on a line of its own, two spaces
deeper than its container. A string literal escapes the quote, the backslash and the characters
below the space, and nothing else, so a text with any other character stands in it as it is.
-/

namespace IntentContract.Json

/-- What a character is written as inside a string literal. -/
def escapeChar (c : Char) : List Char :=
  if c = '"' then ['\\', '"']
  else if c = '\\' then ['\\', '\\']
  else if c = '\n' then ['\\', 'n']
  else if c = '\r' then ['\\', 'r']
  else if c = '\t' then ['\\', 't']
  else if c.toNat = 8 then ['\\', 'b']
  else if c.toNat = 12 then ['\\', 'f']
  else if c.toNat < 32 then
    ['\\', 'u', '0', '0', Text.hexDigit (c.toNat / 16), Text.hexDigit (c.toNat % 16)]
  else [c]

/-- The characters of a text as they stand inside a string literal. -/
def escape (cs : List Char) : List Char :=
  cs.flatMap escapeChar

/-- A text as a string literal. -/
def literal (s : String) : String :=
  "\"" ++ String.ofList (escape s.toList) ++ "\""

/-- How JSON text writes a double: positional from `10 ^ (-5)` to below `10 ^ 16`, a whole number
with one zero after the point, and the even digit where two are equally near. -/
def doubleStyle : Decimal.Style where
  tie := .toEven
  positional e := -5 ≤ e && e ≤ 15
  keepsPoint := true

mutual

/-- **The compact text** of a value. -/
def compact : Json → String
  | .null => "null"
  | .bool true => "true"
  | .bool false => "false"
  | .int n => Text.intText n
  | .double x => x.text doubleStyle
  | .str s => literal s
  | .arr items => "[" ++ compactItems items ++ "]"
  | .obj fields => "\x7b" ++ compactFields fields ++ "\x7d"

/-- The items, divided by commas. -/
def compactItems : List Json → String
  | [] => ""
  | [v] => compact v
  | v :: rest => compact v ++ "," ++ compactItems rest

/-- The fields, divided by commas. -/
def compactFields : List (String × Json) → String
  | [] => ""
  | [(k, v)] => literal k ++ ":" ++ compact v
  | (k, v) :: rest => literal k ++ ":" ++ compact v ++ "," ++ compactFields rest

end

/-- A line break followed by the indentation of a depth. -/
def lineBreak (depth : Nat) : String :=
  "\n" ++ String.ofList (List.replicate (2 * depth) ' ')

mutual

/-- The indented text of a value that starts at the given depth. -/
def prettyAt (depth : Nat) : Json → String
  | .arr [] => "[]"
  | .obj [] => "\x7b\x7d"
  | .arr (v :: rest) => "[" ++ prettyItems (depth + 1) (v :: rest) ++ lineBreak depth ++ "]"
  | .obj (f :: rest) =>
    "\x7b" ++ prettyFields (depth + 1) (f :: rest) ++ lineBreak depth ++ "\x7d"
  | .null => "null"
  | .bool true => "true"
  | .bool false => "false"
  | .int n => Text.intText n
  | .double x => x.text doubleStyle
  | .str s => literal s

/-- The items, each on a line of its own. -/
def prettyItems (depth : Nat) : List Json → String
  | [] => ""
  | [v] => lineBreak depth ++ prettyAt depth v
  | v :: rest => lineBreak depth ++ prettyAt depth v ++ "," ++ prettyItems depth rest

/-- The fields, each on a line of its own. -/
def prettyFields (depth : Nat) : List (String × Json) → String
  | [] => ""
  | [(k, v)] => lineBreak depth ++ literal k ++ ": " ++ prettyAt depth v
  | (k, v) :: rest =>
    lineBreak depth ++ literal k ++ ": " ++ prettyAt depth v ++ "," ++ prettyFields depth rest

end

/-- **The indented text** of a value, without a final line break. -/
def pretty (v : Json) : String :=
  prettyAt 0 v

end IntentContract.Json
