/-!
# The calendar

Dates of the proleptic Gregorian calendar, with a year zero, and times of day. Any minute may have
a leap second, so second sixty exists.
-/

namespace IntentContract

/-- A year with a twenty-ninth of February. -/
def isLeapYear (year : Int) : Bool :=
  year % 4 == 0 && (year % 100 != 0 || year % 400 == 0)

/-- The number of days of a month; none for a number that is no month's. -/
def daysInMonth (year : Int) (month : Nat) : Nat :=
  if month = 2 then (if isLeapYear year then 29 else 28)
  else if month = 4 || month = 6 || month = 9 || month = 11 then 30
  else if 1 ≤ month && month ≤ 12 then 31
  else 0

/-- **A date.** -/
structure Date where
  year : Int
  month : Nat
  day : Nat
  deriving DecidableEq

namespace Date

/-- The first year of the calendar's range. -/
def firstYear : Int := -262143

/-- The last year of the calendar's range. -/
def lastYear : Int := 262142

/-- Whether a date exists, within the range of years. -/
def isValid (d : Date) : Bool :=
  firstYear ≤ d.year && d.year ≤ lastYear && 1 ≤ d.day && d.day ≤ daysInMonth d.year d.month

/-- The day after. -/
def next (d : Date) : Date :=
  if d.day < daysInMonth d.year d.month then { d with day := d.day + 1 }
  else if d.month < 12 then { d with month := d.month + 1, day := 1 }
  else ⟨d.year + 1, 1, 1⟩

/-- The day before. -/
def previous (d : Date) : Date :=
  if 1 < d.day then { d with day := d.day - 1 }
  else if 1 < d.month then
    { d with month := d.month - 1, day := daysInMonth d.year (d.month - 1) }
  else ⟨d.year - 1, 12, 31⟩

end Date

/-- **A time of day.** -/
structure TimeOfDay where
  hour : Nat
  minute : Nat
  second : Nat
  deriving DecidableEq

/-- Whether a time of day exists. -/
def TimeOfDay.isValid (t : TimeOfDay) : Bool :=
  t.hour ≤ 23 && t.minute ≤ 59 && t.second ≤ 60

end IntentContract
