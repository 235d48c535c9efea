import IntentContract.Text.Digits
import IntentContract.Text.Hex
import IntentContract.Toml.Value

/-!
# Words of a TOML document

Truth values, numbers and dates are written as single words without quotes.
-/

namespace IntentContract.Toml

/-- The digits of a run in which single underscores may stand between digits. -/
def digitRun? (isDigit : Char → Bool) : List Char → Option (List Char)
  | [] => none
  | [c] => if isDigit c then some [c] else none
  | c :: '_' :: rest =>
    if isDigit c then (digitRun? isDigit rest).map (c :: ·) else none
  | c :: rest => if isDigit c then (digitRun? isDigit rest).map (c :: ·) else none

/-- A sign in front, if there is one: whether it is a minus, and what follows. -/
def sign : List Char → Bool × List Char
  | '+' :: rest => (false, rest)
  | '-' :: rest => (true, rest)
  | cs => (false, cs)

/-- The digits of a decimal whole number, which has no zero in front of another digit. -/
def wholeDigits? (cs : List Char) : Option (List Char) := do
  match ← digitRun? Text.isDigit cs with
  | '0' :: _ :: _ => none
  | digits => some digits

/-- The value of digits in a base. -/
def valueIn (base : Nat) (digits : List Char) : Nat :=
  digits.foldl (fun n c => base * n + (Text.hexValue? c).getD 0) 0

/-- Whether a character is a digit in a base. -/
def isDigitIn (base : Nat) (c : Char) : Bool :=
  match Text.hexValue? c with
  | some d => d < base
  | none => false

/-- A number in a base other than ten. -/
def based? (base : Nat) (cs : List Char) : Option Value := do
  return .whole (valueIn base (← digitRun? (isDigitIn base) cs))

/-- A decimal whole number. -/
def whole? (cs : List Char) : Option Value := do
  let (negative, cs) := sign cs
  let n := Text.digitsValue (← wholeDigits? cs)
  return .whole (if negative then -n else n)

/-- The exponent of a number, behind its mark. -/
def exponent? (cs : List Char) : Option Int := do
  let (negative, cs) := sign cs
  let n := Text.digitsValue (← digitRun? Text.isDigit cs)
  return if negative then -n else n

/-- A number with a fraction or an exponent. -/
def fractional? (cs : List Char) : Option Value := do
  let (negative, cs) := sign cs
  let mantissa := cs.takeWhile fun c => c != 'e' && c != 'E'
  let exponent ← match cs.dropWhile fun c => c != 'e' && c != 'E' with
    | [] => some 0
    | _ :: rest => exponent? rest
  let front ← wholeDigits? (mantissa.takeWhile (· != '.'))
  let back ← match mantissa.dropWhile (· != '.') with
    | [] => some []
    | _ :: rest => digitRun? Text.isDigit rest
  return .fractional
    (.ofDecimal negative (Text.digitsValue (front ++ back)) (exponent - back.length))

/-- Whether a word has a point or the mark of an exponent. -/
def hasFraction (cs : List Char) : Bool :=
  cs.any fun c => c = '.' || c = 'e' || c = 'E'

/-- An infinity, or what is not a number. -/
def special? (cs : List Char) : Option Value :=
  let (negative, cs) := sign cs
  if cs = "inf".toList || cs = "nan".toList then some (.special negative) else none

/-- **The value of a word.** -/
def scalar? (cs : List Char) : Option Value :=
  match cs with
  | '0' :: 'x' :: rest => based? 16 rest
  | '0' :: 'o' :: rest => based? 8 rest
  | '0' :: 'b' :: rest => based? 2 rest
  | _ =>
    if cs = "true".toList then some (.truth true)
    else if cs = "false".toList then some (.truth false)
    else whole? cs <|> (if hasFraction cs then fractional? cs else none)
      <|> special? cs <|> (Moment.ofChars? cs).map .moment

end IntentContract.Toml
