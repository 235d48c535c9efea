import IntentContract.Json.Basic
import IntentContract.Text.Blank
import IntentContract.Text.Digits
import IntentContract.Time.Calendar

/-!
# Timestamps

Documents give points in time as texts in one of three forms, or as a count of milliseconds:

* the **exact form** `2026-03-04T05:06:07.25+02:00`, all fields of fixed width and with a zone;
* a **date** `2026-3-4`, its fields of any width up to the usual one, blanks allowed in front;
* a **date and time** `2026-3-4T5:6:7` in the same manner, without a zone.

Messages carry an `Instant`, read from a looser text and written in universal time.
-/

namespace IntentContract

namespace TimeText

/-- Takes exactly `width` digits. -/
def fixed? (width : Nat) (cs : List Char) : Option (Nat × List Char) :=
  let front := cs.take width
  if front.length = width && front.all Text.isDigit then
    some (Text.digitsValue front, cs.drop width)
  else none

/-- Takes a given character. -/
def char? (c : Char) : List Char → Option (List Char)
  | [] => none
  | d :: rest => if d = c then some rest else none

/-- Passes over blanks. -/
def skipBlanks (cs : List Char) : List Char :=
  cs.dropWhile Text.isBlank

/-- Takes digits, at least one and at most `most`. -/
def upTo? (most : Nat) (cs : List Char) : Option (Nat × List Char) :=
  let digits := (cs.takeWhile Text.isDigit).take most
  if digits.isEmpty then none else some (Text.digitsValue digits, cs.drop digits.length)

/-- Takes digits, at least one. -/
def digits? (cs : List Char) : Option (Nat × List Char) :=
  let (digits, rest) := Text.spanDigits cs
  if digits.isEmpty then none else some (Text.digitsValue digits, rest)

/-- Takes a number of up to two digits with blanks in front. -/
def part? (cs : List Char) : Option (Nat × List Char) :=
  upTo? 2 (skipBlanks cs)

/-- Takes a year with blanks in front: any number of digits behind a sign, else up to four. -/
def year? (cs : List Char) : Option (Int × List Char) :=
  match skipBlanks cs with
  | '+' :: rest => (digits? rest).map fun (n, rest) => ((n : Int), rest)
  | '-' :: rest => (digits? rest).map fun (n, rest) => (-(n : Int), rest)
  | rest => (upTo? 4 rest).map fun (n, rest) => ((n : Int), rest)

/-! ## The exact form -/

/-- The difference to universal time in minutes: `Z`, or a sign, hours and minutes with a colon
between them. -/
def exactZone? : List Char → Option (Int × List Char)
  | [] => none
  | c :: rest =>
    if c = 'Z' || c = 'z' then some (0, rest)
    else if c = '+' || c = '-' || c = '−' then do
      let (hours, rest) ← fixed? 2 rest
      let rest ← char? ':' rest
      let (minutes, rest) ← fixed? 2 rest
      if hours ≤ 23 && minutes ≤ 59 then
        let m : Int := 60 * hours + minutes
        some (if c = '+' then m else -m, rest)
      else none
    else none

/-- A fraction of a second, if a point comes next: at least one digit. -/
def fraction? : List Char → Option (List Char × List Char)
  | '.' :: rest =>
    let (digits, rest) := Text.spanDigits rest
    if digits.isEmpty then none else some (digits, rest)
  | cs => some ([], cs)

/-- The mark between date and time. -/
def isTimeMark (c : Char) : Bool :=
  c = 'T' || c = 't' || c = ' '

/-- A date and time of the exact form, and what follows it. -/
def strict? (cs : List Char) : Option ((Date × TimeOfDay) × List Char) := do
  let (year, cs) ← fixed? 4 cs
  let cs ← char? '-' cs
  let (month, cs) ← fixed? 2 cs
  let cs ← char? '-' cs
  let (day, cs) ← fixed? 2 cs
  let cs ← match cs with
    | c :: rest => if isTimeMark c then some rest else none
    | [] => none
  let (hour, cs) ← fixed? 2 cs
  let cs ← char? ':' cs
  let (minute, cs) ← fixed? 2 cs
  let cs ← char? ':' cs
  let (second, cs) ← fixed? 2 cs
  let (_, cs) ← fraction? cs
  let (_, cs) ← exactZone? cs
  return ((⟨year, month, day⟩, ⟨hour, minute, second⟩), cs)

/-- Whether a text is of the exact form and names an existing date and time. -/
def isExact (cs : List Char) : Bool :=
  match strict? cs with
  | some ((date, time), []) => date.isValid && time.isValid
  | _ => false

/-! ## Dates, and dates with times -/

/-- A date, and what follows it. -/
def date? (cs : List Char) : Option (Date × List Char) := do
  let (year, cs) ← year? cs
  let cs ← char? '-' cs
  let (month, cs) ← part? cs
  let cs ← char? '-' cs
  let (day, cs) ← part? cs
  return (⟨year, month, day⟩, cs)

/-- A time of day, and what follows it. -/
def time? (cs : List Char) : Option (TimeOfDay × List Char) := do
  let (hour, cs) ← part? cs
  let cs ← char? ':' cs
  let (minute, cs) ← part? cs
  let cs ← char? ':' cs
  let (second, cs) ← part? cs
  return (⟨hour, minute, second⟩, cs)

/-- Whether a text is an existing date. -/
def isDate (cs : List Char) : Bool :=
  match date? cs with
  | some (date, []) => date.isValid
  | _ => false

/-- Whether a text is an existing date with a time. -/
def isDateTime (cs : List Char) : Bool :=
  match date? cs with
  | some (date, 'T' :: rest) =>
    match time? rest with
    | some (time, []) => date.isValid && time.isValid
    | _ => false
  | _ => false

end TimeText

/-- The milliseconds since 1970 of the calendar's first and last moments. -/
def epochRange : Int × Int :=
  (-8334601228800000, 8210266876799999)

/-- **Whether a value is a timestamp**: a text in one of the three forms, or a whole number of
milliseconds within the calendar's range. -/
def isTimestamp : Json → Bool
  | .str s =>
    let cs := s.toList
    TimeText.isExact cs || TimeText.isDate cs || TimeText.isDateTime cs
  | .int n => epochRange.1 ≤ n && n ≤ epochRange.2
  | _ => false

/-! ## Instants -/

/-- **A point in time**, in universal time. -/
structure Instant where
  date : Date
  time : TimeOfDay
  nanosecond : Nat
  deriving DecidableEq

namespace Instant

/-- Midnight before the first of January 1970. -/
def epoch : Instant :=
  ⟨⟨1970, 1, 1⟩, ⟨0, 0, 0⟩, 0⟩

/-- A date and time of a zone `offset` minutes ahead of universal time, in universal time. -/
def ofZone (date : Date) (time : TimeOfDay) (nanosecond : Nat) (offset : Int) : Instant :=
  let minutes : Int := 60 * time.hour + time.minute - offset
  let date :=
    if minutes < 0 then date.previous else if 1440 ≤ minutes then date.next else date
  let minutes := (minutes % 1440).toNat
  ⟨date, ⟨minutes / 60, minutes % 60, time.second⟩, nanosecond⟩

/-- A date, blanks allowed also in front of its dashes. -/
def looseDate? (cs : List Char) : Option (Date × List Char) := do
  let (year, cs) ← TimeText.year? cs
  let cs ← TimeText.char? '-' (TimeText.skipBlanks cs)
  let (month, cs) ← TimeText.part? cs
  let cs ← TimeText.char? '-' (TimeText.skipBlanks cs)
  let (day, cs) ← TimeText.part? cs
  return (⟨year, month, day⟩, cs)

/-- A time of day, blanks allowed also in front of its colons. -/
def looseTime? (cs : List Char) : Option (TimeOfDay × List Char) := do
  let (hour, cs) ← TimeText.part? cs
  let cs ← TimeText.char? ':' (TimeText.skipBlanks cs)
  let (minute, cs) ← TimeText.part? cs
  let cs ← TimeText.char? ':' (TimeText.skipBlanks cs)
  let (second, cs) ← TimeText.part? cs
  return (⟨hour, minute, second⟩, cs)

/-- The difference to universal time in minutes: `UTC` or `Z` in any case, or a sign, two digits of
hours, colons and blanks, and two digits of minutes. -/
def looseZone? (cs : List Char) : Option (Int × List Char) :=
  if (cs.take 3).map Char.toLower = ['u', 't', 'c'] then some (0, cs.drop 3)
  else
    match cs with
    | [] => none
    | c :: rest =>
      if c = 'Z' || c = 'z' then some (0, rest)
      else if c = '+' || c = '-' || c = '−' then do
        let (hours, rest) ← TimeText.fixed? 2 rest
        let rest := rest.dropWhile fun c => c = ':' || Text.isBlank c
        let (minutes, rest) ← TimeText.fixed? 2 rest
        if hours ≤ 23 && minutes ≤ 59 then
          let m : Int := 60 * hours + minutes
          some (if c = '+' then m else -m, rest)
        else none
      else none

/-- The nanoseconds that the digits behind a point stand for; digits beyond the ninth are
dropped. -/
def nanoseconds (digits : List Char) : Nat :=
  let kept := digits.take 9
  Text.digitsValue kept * Nat.pow 10 (9 - kept.length)

/-- **Reads an instant.** -/
def ofText? (text : String) : Option Instant := do
  let (date, cs) ← looseDate? text.toList
  let cs ← match cs with
    | c :: rest => if TimeText.isTimeMark c then some rest else none
    | [] => none
  let (time, cs) ← looseTime? cs
  let (fraction, cs) ← TimeText.fraction? cs
  let (offset, cs) ← looseZone? (TimeText.skipBlanks cs)
  if !(TimeText.skipBlanks cs).isEmpty then none
  else if date.isValid && time.isValid then
    let instant := ofZone date time (nanoseconds fraction) offset
    if instant.date.isValid then some instant else none
  else none

/-- A year with at least four digits, with a sign outside the years zero to 9999. -/
def yearText (year : Int) : String :=
  if 0 ≤ year && year ≤ 9999 then Text.paddedText 4 year.natAbs
  else (if year < 0 then "-" else "+") ++ Text.paddedText 4 year.natAbs

/-- A fraction of a second in the fewest groups of three digits that lose nothing. -/
def fractionText (n : Nat) : String :=
  if n = 0 then ""
  else if n % 1000000 = 0 then "." ++ Text.paddedText 3 (n / 1000000)
  else if n % 1000 = 0 then "." ++ Text.paddedText 6 (n / 1000)
  else "." ++ Text.paddedText 9 n

/-- The text of an instant, with what stands for universal time behind it. -/
def textWith (zone : String) (i : Instant) : String :=
  yearText i.date.year ++ "-" ++ Text.paddedText 2 i.date.month ++ "-"
    ++ Text.paddedText 2 i.date.day ++ "T" ++ Text.paddedText 2 i.time.hour ++ ":"
    ++ Text.paddedText 2 i.time.minute ++ ":" ++ Text.paddedText 2 i.time.second
    ++ fractionText i.nanosecond ++ zone

/-- **The text of an instant**, as messages have it. -/
def text (i : Instant) : String :=
  i.textWith "Z"

/-- The text of an instant with the difference to universal time in digits, as execution records
have it. -/
def textInDigits (i : Instant) : String :=
  i.textWith "+00:00"

end Instant

end IntentContract
