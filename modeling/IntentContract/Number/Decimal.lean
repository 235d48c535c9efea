import IntentContract.Text.Digits
import IntentContract.Number.Double

/-!
# Decimal text of doubles

A double is written with the **fewest digits that read back** as the same number, and of those
the ones nearest to it. Which digits these are is a matter of arithmetic alone; where the point
stands and when an exponent is written is the decision of a format, and is kept apart from it in
`Style`.
-/

namespace IntentContract

/-- Significant decimal digits `digits` and the power of ten of the leading one, so that the
number is `d.ddd · 10 ^ exponent`. -/
structure Decimal where
  /-- The significant digits, the first of them not zero unless the number is. -/
  digits : List Char
  /-- The decimal exponent of the first digit. -/
  exponent : Int
  deriving DecidableEq

namespace Decimal

/-- The greatest `e` with `10 ^ e ≤ num / den`, for positive `num` and `den`. -/
def decimalExponent (num den : Nat) : Int :=
  if den ≤ num then
    ((Nat.toDigits 10 (num / den)).length : Int) - 1
  else
    -- `1 ≤ num · 10 ^ k / den` first holds at the exponent looked for or one place before it.
    let k := (Nat.toDigits 10 (den / num)).length
    if den ≤ num * Nat.pow 10 (k - 1) then -((k - 1 : Nat) : Int) else -(k : Int)

/-- The decimals with `places` digits next to `x` from below and from above, as whole numbers
counted in units of `10 ^ unit`, and which of the two is nearer. -/
def candidates (tie : Tie) (num den : Nat) (unit : Int) : Nat × Nat × Nat :=
  let n := num * Nat.pow 10 (-unit).toNat
  let d := den * Nat.pow 10 unit.toNat
  (n / d, n / d + 1, roundDiv tie n d)

/-- Whether `value · 10 ^ unit` is read as the double `x`. -/
def readsBack (x : Double) (value : Nat) (unit : Int) : Bool :=
  Double.ofDecimal x.negative value unit == x

/-- The shortest decimal that reads back as `x`, searched from `places` digits on; `fuel` counts
the numbers of digits still to be tried, seventeen digits always being enough. -/
def search (tie : Tie) (x : Double) (num den : Nat) (lead : Int) : Nat → Nat → Nat × Int
  | 0, places =>
    let unit := lead - (places : Int) + 1
    ((candidates tie num den unit).2.2, unit)
  | fuel + 1, places =>
    let unit := lead - (places : Int) + 1
    let (lo, hi, near) := candidates tie num den unit
    let far := if near = lo then hi else lo
    if readsBack x near unit then (near, unit)
    else if readsBack x far unit then (far, unit)
    else search tie x num den lead fuel (places + 1)

/-- Drops the zeros at the end of a list of digits. -/
def dropTrailingZeros (cs : List Char) : List Char :=
  (cs.reverse.dropWhile (· == '0')).reverse

/-- **The shortest decimal** of a finite double, its sign left out. A value that lies exactly
between two candidates goes as `tie` says. -/
def shortest (tie : Tie) (x : Double) : Decimal :=
  let (num, den) := x.fraction
  if num = 0 then { digits := ['0'], exponent := 0 }
  else
    let lead := decimalExponent num den
    let (value, unit) := search tie x num den lead 16 1
    let digits := Nat.toDigits 10 value
    { digits := dropTrailingZeros digits, exponent := unit + (digits.length : Int) - 1 }

/-- **How a format writes a decimal.** -/
structure Style where
  /-- How a value exactly between two shortest decimals is settled. -/
  tie : Tie
  /-- The decimal exponents of the first digit that are written without an exponent. -/
  positional : Int → Bool
  /-- Whether a whole number keeps one zero after the point. -/
  keepsPoint : Bool

/-- The digits with the point put where the exponent says. -/
def positionalText (style : Style) (d : Decimal) : String :=
  if d.exponent < 0 then
    "0." ++ String.ofList (List.replicate (-d.exponent - 1).toNat '0' ++ d.digits)
  else
    let whole := d.exponent.toNat + 1
    let front := d.digits.take whole ++ List.replicate (whole - d.digits.length) '0'
    let back := d.digits.drop whole
    let tail := if back.isEmpty && style.keepsPoint then ['0'] else back
    if tail.isEmpty then String.ofList front
    else String.ofList front ++ "." ++ String.ofList tail

/-- One digit, the point, the others, and a signed exponent. -/
def scientificText (d : Decimal) : String :=
  let back := d.digits.drop 1
  let mantissa :=
    if back.isEmpty then String.ofList (d.digits.take 1)
    else String.ofList (d.digits.take 1) ++ "." ++ String.ofList back
  let sign := if d.exponent < 0 then "-" else "+"
  mantissa ++ "e" ++ sign ++ Text.natText d.exponent.natAbs

/-- A decimal in a format's style. -/
def text (style : Style) (d : Decimal) : String :=
  if style.positional d.exponent then positionalText style d else scientificText d

end Decimal

namespace Double

/-- The text of a double in a format's style, its sign in front. -/
def text (style : Decimal.Style) (x : Double) : String :=
  let sign := if x.negative then "-" else ""
  match x with
  | .infinite _ => sign ++ "inf"
  | .finite .. => sign ++ (Decimal.shortest style.tie x).text style

/-- The text of a double with exactly `places` digits after the point: its exact value is
rounded, ties to even. -/
def fixedText (places : Nat) (x : Double) : String :=
  let (num, den) := x.fraction
  let scaled := roundDiv .toEven (num * Nat.pow 10 places) den
  let sign := if x.negative then "-" else ""
  sign ++ Text.natText (scaled / Nat.pow 10 places) ++ "."
    ++ Text.paddedText places (scaled % Nat.pow 10 places)

end Double

end IntentContract
