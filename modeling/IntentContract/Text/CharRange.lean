/-!
# Ranges of characters

Properties of characters are given by the code points that have them, as ranges in order.
-/

namespace IntentContract.Text

/-- The first and the last code point of a range. -/
abbrev CharRange := Nat × Nat

/-- Whether a character is in one of the ranges. -/
def inRanges (ranges : List CharRange) (c : Char) : Bool :=
  ranges.any fun r => r.1 ≤ c.toNat && c.toNat ≤ r.2

end IntentContract.Text
