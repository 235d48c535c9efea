/-!
# Decimal digit runs

Values of digit runs and their canonical text. A run is valued from the left, so leading zeros
do not matter, and the text of a number has none.
-/

namespace IntentContract.Text

/-- A decimal digit of ASCII. -/
def isDigit (c : Char) : Bool :=
  48 ≤ c.toNat && c.toNat ≤ 57

/-- The number a decimal digit stands for. -/
def digitValue (c : Char) : Nat :=
  c.toNat - 48

/-- The number a run of digits stands for. -/
def digitsValue (cs : List Char) : Nat :=
  cs.foldl (fun n c => 10 * n + digitValue c) 0

/-- Splits off the longest run of digits in front. -/
def spanDigits (cs : List Char) : List Char × List Char :=
  (cs.takeWhile isDigit, cs.dropWhile isDigit)

/-- Nothing is lost in splitting off a run of digits. -/
theorem spanDigits_append (cs : List Char) : (spanDigits cs).1 ++ (spanDigits cs).2 = cs :=
  List.takeWhile_append_dropWhile

/-- The decimal text of a natural number. -/
def natText (n : Nat) : String :=
  String.ofList (Nat.toDigits 10 n)

/-- The decimal text of an integer, with a minus sign below zero. -/
def intText (n : Int) : String :=
  if n < 0 then "-" ++ natText n.natAbs else natText n.natAbs

/-- The decimal text of `n`, filled with zeros in front to at least `width` digits. -/
def paddedText (width n : Nat) : String :=
  let digits := Nat.toDigits 10 n
  String.ofList (List.replicate (width - digits.length) '0' ++ digits)

end IntentContract.Text
