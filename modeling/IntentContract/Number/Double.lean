/-!
# Binary floating-point numbers

Numbers with a fraction are held as the nearest number of the form `± m · 2 ^ q` that has at most
53 significant binary digits and no finer unit than `2 ^ (-1074)`. They are kept as the integers
`m` and `q`, so every comparison below is one of whole numbers and nothing depends on the
arithmetic of a machine.
-/

namespace IntentContract

/-- How a quotient that lies exactly between two whole numbers is rounded. -/
inductive Tie where
  | toEven
  | up
  deriving DecidableEq

/-- The whole number nearest to `num / den`, a tie being settled by `tie`. -/
def roundDiv (tie : Tie) (num den : Nat) : Nat :=
  let q := num / den
  let r := num % den
  if 2 * r < den then q
  else if den < 2 * r then q + 1
  else match tie with
    | .toEven => if q % 2 = 0 then q else q + 1
    | .up => q + 1

/-- **A double**: a finite number `± mantissa · 2 ^ exponent`, or an infinity. Zero has a sign. -/
inductive Double where
  | finite (negative : Bool) (mantissa : Nat) (exponent : Int)
  | infinite (negative : Bool)
  deriving DecidableEq

namespace Double

/-- The exponent of the finest unit. -/
def leastExponent : Int := -1074

/-- The greatest exponent of a finite number. -/
def greatestExponent : Int := 971

/-- Zero, with its sign. -/
def zero (negative : Bool) : Double :=
  .finite negative 0 leastExponent

/-- Whether a number carries a minus sign. -/
def negative : Double → Bool
  | .finite s _ _ => s
  | .infinite s => s

/-- The greatest `b` with `2 ^ b ≤ num / den`, for positive `num` and `den`. -/
def binaryExponent (num den : Nat) : Int :=
  let k := (Nat.log2 num : Int) - (Nat.log2 den : Int)
  if den * Nat.pow 2 k.toNat ≤ num * Nat.pow 2 (-k).toNat then k else k - 1

/-- The double nearest to `num / den`, ties to the even mantissa. Beyond the greatest finite
number it is infinite. -/
def nearest (negative : Bool) (num den : Nat) : Double :=
  if num = 0 then zero negative
  else
    let q := max (binaryExponent num den - 52) leastExponent
    let m := roundDiv .toEven (num * Nat.pow 2 (-q).toNat) (den * Nat.pow 2 q.toNat)
    let (m, q) := if m = Nat.pow 2 53 then (Nat.pow 2 52, q + 1) else (m, q)
    if greatestExponent < q then .infinite negative else .finite negative m q

/-- The double nearest to a whole number. -/
def ofInt (n : Int) : Double :=
  nearest (n < 0) n.natAbs 1

/-- The double nearest to `± digits · 10 ^ exponent`. Decimals with a leading place beyond
`10 ^ 310` are infinite and those below `10 ^ (-330)` are zero, whatever their digits. -/
def ofDecimal (negative : Bool) (digits : Nat) (exponent : Int) : Double :=
  if digits = 0 then zero negative
  else
    let places := ((Nat.toDigits 10 digits).length : Int) + exponent
    if 310 < places then .infinite negative
    else if places < -330 then zero negative
    else nearest negative (digits * Nat.pow 10 exponent.toNat) (Nat.pow 10 (-exponent).toNat)

/-- A finite number as a quotient of whole numbers, without its sign. -/
def fraction : Double → Nat × Nat
  | .finite _ m q => (m * Nat.pow 2 q.toNat, Nat.pow 2 (-q).toNat)
  | .infinite _ => (1, 0)

/-- The double nearest to a power of ten. -/
def powerOfTen (k : Nat) : Double :=
  nearest false (Nat.pow 10 k) 1

/-- The product of a finite number and the double nearest to a power of ten, rounded. -/
def timesPower (x : Double) (k : Nat) : Double :=
  let (n, d) := x.fraction
  let (p, q) := (powerOfTen k).fraction
  nearest x.negative (n * p) (d * q)

/-- A finite number over the double nearest to a power of ten, rounded. -/
def overPower (x : Double) (k : Nat) : Double :=
  let (n, d) := x.fraction
  let (p, q) := (powerOfTen k).fraction
  nearest x.negative (n * q) (d * p)

/-- Whether a number is zero, with either sign. -/
def isZero : Double → Bool
  | .finite _ m _ => m == 0
  | .infinite _ => false

/-- The number counted in finest units, without its sign. -/
def magnitude : Double → Nat
  | .finite _ m q => m * Nat.pow 2 (q - leastExponent).toNat
  | .infinite _ => Nat.pow 2 2098

/-- The number counted in finest units; the infinities lie beyond every finite number. -/
def units (x : Double) : Int :=
  if x.negative then -(x.magnitude : Int) else x.magnitude

/-- The order of the numbers; the two zeros are equal in it. -/
def lt (x y : Double) : Bool :=
  x.units < y.units

end Double

end IntentContract
