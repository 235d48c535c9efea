/-!
# Hexadecimal digits

Digits below sixteen as characters, in lower case, and back. Both cases are read.
-/

namespace IntentContract.Text

/-- The lower-case digit for a number below sixteen. -/
def hexDigit (n : Nat) : Char :=
  if n < 10 then Char.ofNat (48 + n) else Char.ofNat (87 + n)

/-- The number a hexadecimal digit stands for, in either case. -/
def hexValue? (c : Char) : Option Nat :=
  let n := c.toNat
  if 48 ≤ n && n ≤ 57 then some (n - 48)
  else if 97 ≤ n && n ≤ 102 then some (n - 87)
  else if 65 ≤ n && n ≤ 70 then some (n - 55)
  else none

/-- A digit reads back as the number it was written for. -/
theorem hexValue?_hexDigit {n : Nat} (h : n < 16) : hexValue? (hexDigit n) = some n := by
  have : ∀ m : Fin 16, hexValue? (hexDigit m) = some m.val := by decide
  exact this ⟨n, h⟩

/-- The digits of `n`, most significant first, `width` of them. -/
def hexDigits : Nat → Nat → List Char
  | 0, _ => []
  | width + 1, n => hexDigits width (n / 16) ++ [hexDigit (n % 16)]

end IntentContract.Text
