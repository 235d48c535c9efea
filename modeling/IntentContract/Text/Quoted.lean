import IntentContract.Text.ExtendingMark
import IntentContract.Text.Hex
import IntentContract.Text.Join
import IntentContract.Text.Printable

/-!
# Quoted texts for diagnostics

A text between double quotes in which every character can be seen, and told from the one in front.
-/

namespace IntentContract.Text

/-- The hexadecimal digits of a number, without leading zeros. -/
def hexText (n : Nat) : String :=
  String.ofList (Nat.toDigits 16 n)

/-- What a character is written as: the quote and the backslash behind a backslash, the usual
control characters by their letter, and by their code point all others that are not printable and
the marks that extend the character in front. -/
def visibleChar (c : Char) : String :=
  if c = '"' then "\\\""
  else if c = '\\' then "\\\\"
  else if c = '\n' then "\\n"
  else if c = '\t' then "\\t"
  else if c = '\r' then "\\r"
  else if c.toNat = 0 then "\\0"
  else if isExtendingMark c || !isPrintable c then
    "\\u\x7b" ++ hexText c.toNat ++ "\x7d"
  else String.singleton c

/-- A text in quotes with all its characters visible. -/
def visible (s : String) : String :=
  "\"" ++ String.join (s.toList.map visibleChar) ++ "\""

/-- A list of texts in quotes. -/
def visibleList (texts : List String) : String :=
  "[" ++ join ", " (texts.map visible) ++ "]"

end IntentContract.Text
