import IntentContract.Text.Digits
import IntentContract.Json.Basic

/-!
# Numbers in JSON text

A number is read into a **significand** below `2 ^ 64` and a power of ten. Digits that no longer
fit are dropped: those in front of the point still count as places, those behind it do not. A
number without point and exponent that fits is whole; any other is a double, which is the
significand rounded to a double and then multiplied with, or divided by, a power of ten rounded to
a double. Each of these steps rounds on its own, so the result is not always the double nearest to
what is written.
-/

namespace IntentContract.Json

/-- Appends decimal digits to a number as long as it stays below `2 ^ 64`: the number, and the
digits left over. -/
def absorb (n : Nat) : List Char → Nat × List Char
  | [] => (n, [])
  | c :: rest =>
    let next := 10 * n + Text.digitValue c
    if next < Nat.pow 2 64 then absorb next rest else (n, c :: rest)

/-- The digits after a point, if the text goes on with a point; there must be one at least. -/
def fractionPart? : List Char → Option (List Char × List Char)
  | '.' :: cs =>
    let (digits, rest) := Text.spanDigits cs
    if digits.isEmpty then none else some (digits, rest)
  | cs => some ([], cs)

/-- The signed number after an exponent mark, none if the text does not go on with one. -/
def exponentPart? (cs : List Char) : Option (Option Int × List Char) :=
  match cs with
  | c :: cs' =>
    if c = 'e' || c = 'E' then
      let (negative, cs') := match cs' with
        | '-' :: r => (true, r)
        | '+' :: r => (false, r)
        | r => (false, r)
      let (digits, rest) := Text.spanDigits cs'
      if digits.isEmpty then none
      else
        let n : Int := Text.digitsValue digits
        some (some (if negative then -n else n), rest)
    else some (none, cs)
  | [] => some (none, [])

/-- The greatest power of ten that is a double. -/
def greatestPower : Nat := 308

/-- A finite number times a power of ten; none if that is beyond the doubles. A power too small to
be a double is divided by in steps. -/
def scale? (x : Double) (exponent : Int) : Option Double :=
  if x.isZero then some x
  else if 0 ≤ exponent then
    if exponent.toNat ≤ greatestPower then
      match x.timesPower exponent.toNat with
      | .infinite _ => none
      | y => some y
    else none
  else if (-exponent).toNat ≤ greatestPower then some (x.overPower (-exponent).toNat)
  else scale? (x.overPower greatestPower) (exponent + greatestPower)
termination_by (-exponent).toNat
decreasing_by
  simp only [greatestPower] at *
  omega

/-- A significand times a power of ten as a double. -/
def doubleOf? (negative : Bool) (significand : Nat) (exponent : Int) : Option Json :=
  (scale? (.nearest negative significand 1) exponent).map .double

/-- A whole number that fits: a negative one too large for 64 bits with a sign is a double, and so
is the negative zero. -/
def wholeNumber (negative : Bool) (n : Nat) : Json :=
  if negative then
    if n = 0 || Nat.pow 2 63 < n then .double (.nearest true n 1) else .int (-(n : Int))
  else .int n

/-- **The number with the given digits** in front of the point and behind it, and with the given
exponent; none if it is beyond the doubles. -/
def numberOf? (negative : Bool) (whole fraction : List Char) (exponent : Option Int) :
    Option Json :=
  let (n, dropped) := absorb 0 whole
  let (m, ignored) := absorb n fraction
  let places := (fraction.length : Int) - ignored.length
  if fraction.isEmpty && exponent.isNone && dropped.isEmpty then some (wholeNumber negative n)
  else doubleOf? negative m (dropped.length - places + exponent.getD 0)

/-- The number in front of a text, and the text behind it. A number beyond the doubles is well
formed and has no value. -/
def numberPart? (cs : List Char) : Option (Option Json × List Char) :=
  let (negative, cs) := match cs with
    | '-' :: r => (true, r)
    | r => (false, r)
  let (whole, rest) := match cs with
    | '0' :: r => (['0'], r)
    | r => Text.spanDigits r
  if whole.isEmpty then none
  else do
    let (fraction, rest) ← fractionPart? rest
    let (exponent, rest) ← exponentPart? rest
    return (numberOf? negative whole fraction exponent, rest)

end IntentContract.Json
