import IntentContract.Text.Digits
import IntentContract.Time.Calendar
import IntentContract.Time.Timestamp

/-!
# Dates and times of a TOML document

A date, a time of day, or both, and behind both the offset from universal time. All fields have
their full width; only the seconds may be left out, and count as zero. However a moment is written
in a document, its text has one form: `T` between date and time, the seconds, and of a fraction no
more digits than needed.
-/

namespace IntentContract.Toml

/-- **A time of day** with the nanoseconds behind its seconds. -/
structure ClockTime where
  time : TimeOfDay
  nanosecond : Nat
  deriving DecidableEq

/-- **The offset from universal time.** -/
inductive Offset where
  | universal
  | ahead (minutes : Int)
  deriving DecidableEq

/-- **A date, a time, or both.** -/
inductive Moment where
  | date (d : Date)
  | time (t : ClockTime)
  | both (d : Date) (t : ClockTime) (offset : Option Offset)
  deriving DecidableEq

/-! ## Reading -/

/-- An existing date in front. -/
def date? (cs : List Char) : Option (Date × List Char) := do
  let (year, cs) ← TimeText.fixed? 4 cs
  let (month, cs) ← TimeText.fixed? 2 (← TimeText.char? '-' cs)
  let (day, cs) ← TimeText.fixed? 2 (← TimeText.char? '-' cs)
  let date : Date := ⟨year, month, day⟩
  if date.isValid then some (date, cs) else none

/-- Whether a text is an existing date. -/
def isDate (cs : List Char) : Bool :=
  match date? cs with
  | some (_, []) => true
  | _ => false

/-- Two numbers of two digits with a colon between them. -/
def hourMinute? (cs : List Char) : Option ((Nat × Nat) × List Char) := do
  let (hour, cs) ← TimeText.fixed? 2 cs
  let (minute, cs) ← TimeText.fixed? 2 (← TimeText.char? ':' cs)
  return ((hour, minute), cs)

/-- The seconds of a time with the digits of their fraction; they may be left out. -/
def seconds? : List Char → Option ((Nat × List Char) × List Char)
  | ':' :: cs => do
    let (second, cs) ← TimeText.fixed? 2 cs
    let (fraction, cs) ← TimeText.fraction? cs
    return ((second, fraction), cs)
  | cs => some ((0, []), cs)

/-- An existing time of day in front. -/
def clockTime? (cs : List Char) : Option (ClockTime × List Char) := do
  let ((hour, minute), cs) ← hourMinute? cs
  let ((second, fraction), cs) ← seconds? cs
  let time : TimeOfDay := ⟨hour, minute, second⟩
  if time.isValid then some (⟨time, Instant.nanoseconds fraction⟩, cs) else none

/-- A distance in hours and minutes that makes up the whole text. -/
def distance? (cs : List Char) : Option Nat :=
  match hourMinute? cs with
  | some ((hours, minutes), []) =>
    if hours ≤ 23 && minutes ≤ 59 then some (60 * hours + minutes) else none
  | _ => none

/-- The offset that makes up the whole text; it may be left out. -/
def offset? : List Char → Option (Option Offset)
  | [] => some none
  | ['Z'] => some (some .universal)
  | ['z'] => some (some .universal)
  | '+' :: cs => (distance? cs).map fun n => some (.ahead n)
  | '-' :: cs => (distance? cs).map fun n => some (.ahead (-n))
  | _ => none

/-- **Reads a moment** that makes up the whole text. -/
def Moment.ofChars? (cs : List Char) : Option Moment :=
  match date? cs with
  | some (d, []) => some (.date d)
  | some (d, c :: rest) =>
    if TimeText.isTimeMark c then do
      let (t, rest) ← clockTime? rest
      return .both d t (← offset? rest)
    else none
  | none =>
    match clockTime? cs with
    | some (t, []) => some (.time t)
    | _ => none

/-! ## Writing -/

/-- The text of a date, whose year has at most four digits. -/
def dateText (d : Date) : String :=
  Text.paddedText 4 d.year.natAbs ++ "-" ++ Text.paddedText 2 d.month ++ "-"
    ++ Text.paddedText 2 d.day

/-- The text of a fraction of a second: nine digits without the zeros at their end. -/
def fractionText (nanosecond : Nat) : String :=
  if nanosecond = 0 then ""
  else
    let digits := (Text.paddedText 9 nanosecond).toList
    "." ++ String.ofList (digits.reverse.dropWhile (· == '0')).reverse

/-- The text of a time of day. -/
def ClockTime.text (t : ClockTime) : String :=
  Text.paddedText 2 t.time.hour ++ ":" ++ Text.paddedText 2 t.time.minute ++ ":"
    ++ Text.paddedText 2 t.time.second ++ fractionText t.nanosecond

/-- The text of an offset; no distance at all is written with a plus. -/
def Offset.text : Offset → String
  | .universal => "Z"
  | .ahead n =>
    (if n < 0 then "-" else "+") ++ Text.paddedText 2 (n.natAbs / 60) ++ ":"
      ++ Text.paddedText 2 (n.natAbs % 60)

/-- **The text of a moment.** -/
def Moment.text : Moment → String
  | .date d => dateText d
  | .time t => t.text
  | .both d t offset =>
    dateText d ++ "T" ++ t.text ++ (match offset with
      | some o => o.text
      | none => "")

end IntentContract.Toml
