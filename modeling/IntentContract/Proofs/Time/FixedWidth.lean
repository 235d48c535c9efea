import IntentContract.Proofs.Token.Spelling
import IntentContract.Time.Timestamp

/-!
# Timestamps of fixed width

A text is a timestamp if any of three readers takes it, and the three differ in what they are strict
about. One wants a zone and fields of fixed width; the others take no zone, but fields of fewer
digits and blanks in front of them. So a text with a field out of range is no timestamp only if
each of them refuses it.

On texts whose fields have their full width the three do not get in each other's way. A
`DigitField` is taken whole by every reader, so all of them find the same date and time, and what
stands behind the date and behind the time decides which of them is left. Such a text is a
timestamp exactly if the date is in the calendar, the time is one of the day, and the zone, if
there is one, is less than a day away from universal time (`isTimestamp_text_iff`).
-/

namespace IntentContract

/-! ## The calendar -/

/-- **A leap year** of the Gregorian calendar: every fourth, but of the full centuries only every
fourth again. -/
def IsLeap (year : Int) : Prop :=
  4 ∣ year ∧ (100 ∣ year → 400 ∣ year)

/-- **The number of days of a month** in the Gregorian calendar. -/
inductive HasDays (year : Int) : Nat → Nat → Prop
  | long {month : Nat} (h : month ∈ [1, 3, 5, 7, 8, 10, 12]) : HasDays year month 31
  | short {month : Nat} (h : month ∈ [4, 6, 9, 11]) : HasDays year month 30
  | leapFebruary (h : IsLeap year) : HasDays year 2 29
  | february (h : ¬ IsLeap year) : HasDays year 2 28

/-- **A date that exists**: its month has a day of its number. -/
def Date.Exists (d : Date) : Prop :=
  ∃ days, HasDays d.year d.month days ∧ 1 ≤ d.day ∧ d.day ≤ days

/-- **A time of day that exists**, leap seconds included. -/
def TimeOfDay.Exists (t : TimeOfDay) : Prop :=
  t.hour ≤ 23 ∧ t.minute ≤ 59 ∧ t.second ≤ 60

theorem isLeapYear_iff {year : Int} : isLeapYear year = true ↔ IsLeap year := by
  simp only [isLeapYear, IsLeap, Bool.and_eq_true, Bool.or_eq_true, beq_iff_eq, bne_iff_ne]
  omega

theorem daysInMonth_of_hasDays {year : Int} {month days : Nat} (h : HasDays year month days) :
    daysInMonth year month = days := by
  cases h with
  | long h =>
    simp only [List.mem_cons, List.not_mem_nil, or_false] at h
    rcases h with rfl | rfl | rfl | rfl | rfl | rfl | rfl <;> rfl
  | short h =>
    simp only [List.mem_cons, List.not_mem_nil, or_false] at h
    rcases h with rfl | rfl | rfl | rfl <;> rfl
  | leapFebruary h => simp [daysInMonth, isLeapYear_iff.mpr h]
  | february h => simp [daysInMonth, mt isLeapYear_iff.mp h]

/-- A number that has days is a month's. -/
theorem hasDays_of_daysInMonth {year : Int} {month : Nat} (h : 0 < daysInMonth year month) :
    HasDays year month (daysInMonth year month) := by
  unfold daysInMonth at h ⊢
  split
  · next hmonth =>
    subst hmonth
    split
    · next hleap => exact .leapFebruary (isLeapYear_iff.mp hleap)
    · next hleap => exact .february (mt isLeapYear_iff.mpr hleap)
  · next hmonth =>
    rw [if_neg hmonth] at h
    split
    · next hshort =>
      refine .short ?_
      simpa [or_assoc] using hshort
    · next hshort =>
      rw [if_neg hshort] at h
      split
      · next hrange =>
        refine .long ?_
        simp only [Bool.or_eq_true, Bool.and_eq_true, decide_eq_true_eq] at hshort hrange
        simp only [List.mem_cons, List.not_mem_nil, or_false]
        omega
      · next hrange =>
        rw [if_neg hrange] at h
        cases h

/-- **Within the range of years, the dates that are valid are those that exist.** -/
theorem Date.isValid_iff_exists {d : Date} (hfirst : firstYear ≤ d.year)
    (hlast : d.year ≤ lastYear) : d.isValid = true ↔ d.Exists := by
  simp only [isValid, hfirst, hlast, decide_true, Bool.true_and, Bool.and_eq_true,
    decide_eq_true_eq]
  constructor
  · rintro ⟨hone, hday⟩
    exact ⟨_, hasDays_of_daysInMonth (Nat.lt_of_lt_of_le hone hday), hone, hday⟩
  · rintro ⟨days, hdays, hone, hday⟩
    exact ⟨hone, daysInMonth_of_hasDays hdays ▸ hday⟩

theorem TimeOfDay.isValid_iff_exists {t : TimeOfDay} : t.isValid = true ↔ t.Exists := by
  simp only [isValid, Exists, Bool.and_eq_true, decide_eq_true_eq, and_assoc]

/-! ## Fields -/

/-- The number of a run of digits, behind those in front of it. -/
theorem Text.foldl_digitValue_lt {cs : List Char} (h : ∀ c ∈ cs, isDigit c = true) (n : Nat) :
    cs.foldl (fun n c => 10 * n + digitValue c) n < (n + 1) * Nat.pow 10 cs.length := by
  induction cs generalizing n with
  | nil => exact Nat.lt_of_lt_of_eq (Nat.lt_succ_self n) (Nat.mul_one (n + 1)).symm
  | cons c cs ih =>
    rw [List.forall_mem_cons] at h
    have hc : digitValue c ≤ 9 := by
      have hdigit := h.1
      simp only [isDigit, Bool.and_eq_true, decide_eq_true_eq] at hdigit
      unfold digitValue
      omega
    calc (c :: cs).foldl (fun n c => 10 * n + digitValue c) n
        < (10 * n + digitValue c + 1) * Nat.pow 10 cs.length := ih h.2 _
      _ ≤ ((n + 1) * 10) * Nat.pow 10 cs.length := Nat.mul_le_mul_right _ (by omega)
      _ = (n + 1) * Nat.pow 10 (c :: cs).length := by
        rw [Nat.mul_assoc, Nat.mul_comm 10]
        rfl

namespace TimeText

/-- **A field of fixed width**: so many digits. -/
structure DigitField (width : Nat) where
  digits : List Char
  length_digits : digits.length = width
  isDigit : ∀ c ∈ digits, Text.isDigit c = true

namespace DigitField

variable {width : Nat}

/-- The number in a field. -/
def value (f : DigitField width) : Nat :=
  Text.digitsValue f.digits

theorem value_lt (f : DigitField width) : f.value < Nat.pow 10 width := by
  have hlt := Text.foldl_digitValue_lt f.isDigit 0
  rwa [f.length_digits, Nat.zero_add, Nat.one_mul] at hlt

/-- A field begins with a digit. -/
theorem exists_cons (f : DigitField (width + 1)) :
    ∃ c cs, f.digits = c :: cs ∧ Text.isDigit c = true := by
  obtain ⟨c, cs, hdigits⟩ := List.exists_cons_of_length_eq_add_one f.length_digits
  exact ⟨c, cs, hdigits, f.isDigit c (hdigits ▸ List.mem_cons_self)⟩

end DigitField

/-! ## Readers on fields -/

section Readers

variable {width : Nat} (rest : List Char)

theorem char?_cons (c : Char) : char? c (c :: rest) = some rest :=
  if_pos rfl

/-- **A strict reader takes a field whole.** -/
theorem fixed?_field (f : DigitField width) :
    fixed? width (f.digits ++ rest) = some (f.value, rest) := by
  have htake : (f.digits ++ rest).take width = f.digits := List.take_left' f.length_digits
  have hdrop : (f.digits ++ rest).drop width = rest := List.drop_left' f.length_digits
  have hall : f.digits.all Text.isDigit = true := List.all_eq_true.mpr f.isDigit
  simp [fixed?, htake, hdrop, hall, f.length_digits, DigitField.value]

-- Used in front of the subterms: a reader's next steps are then not looked at before it is known
-- what they read.
theorem bind_char?_cons {α : Type} (c : Char) (k : List Char → Option α) :
    (char? c (c :: rest) >>= k) = k rest := by
  rw [char?_cons]
  rfl

theorem bind_fixed?_field {α : Type} (f : DigitField width) (k : Nat × List Char → Option α) :
    (fixed? width (f.digits ++ rest) >>= k) = k (f.value, rest) := by
  rw [fixed?_field]
  rfl

/-- A field has no blank in front. -/
theorem skipBlanks_field (f : DigitField (width + 1)) :
    skipBlanks (f.digits ++ rest) = f.digits ++ rest := by
  obtain ⟨c, cs, hdigits, hc⟩ := f.exists_cons
  have hblank : ¬ Text.isBlank c = true := by
    simp only [Text.isDigit, Bool.and_eq_true, decide_eq_true_eq] at hc
    rw [Scan.isBlank_of_visible (by omega) (by omega)]
    exact Bool.false_ne_true
  rw [hdigits, List.cons_append, skipBlanks, List.dropWhile_cons_of_neg hblank]

/-- A lenient reader takes a field of its greatest width whole. -/
theorem upTo?_field (f : DigitField (width + 1)) :
    upTo? (width + 1) (f.digits ++ rest) = some (f.value, rest) := by
  have htake : ((f.digits ++ rest).takeWhile Text.isDigit).take (width + 1) = f.digits := by
    rw [List.takeWhile_append_of_pos f.isDigit, List.take_left' f.length_digits]
  have hne : f.digits.isEmpty = false := by
    obtain ⟨c, cs, hdigits, -⟩ := f.exists_cons
    rw [hdigits]
    rfl
  simp [upTo?, htake, hne, DigitField.value]

theorem part?_field (f : DigitField 2) : part? (f.digits ++ rest) = some (f.value, rest) := by
  rw [part?, skipBlanks_field, upTo?_field]

theorem year?_field (f : DigitField 4) :
    year? (f.digits ++ rest) = some ((f.value : Int), rest) := by
  have hupTo := upTo?_field rest f
  rw [year?, skipBlanks_field]
  -- a digit is no sign
  obtain ⟨c, cs, hdigits, hc⟩ := f.exists_cons
  rw [hdigits, List.cons_append] at hupTo ⊢
  split
  · next heq =>
    obtain ⟨rfl, -⟩ := List.cons.inj heq
    cases hc
  · next heq =>
    obtain ⟨rfl, -⟩ := List.cons.inj heq
    cases hc
  · rw [hupTo]
    rfl

end Readers

/-! ## Dates and times -/

/-- **A date of fixed width**: `dddd-dd-dd`. -/
structure DateFields where
  year : DigitField 4
  month : DigitField 2
  day : DigitField 2

/-- **A time of fixed width**: `dd:dd:dd`. -/
structure TimeFields where
  hour : DigitField 2
  minute : DigitField 2
  second : DigitField 2

/-- The characters of a date. -/
def DateFields.text (d : DateFields) : List Char :=
  d.year.digits ++ '-' :: (d.month.digits ++ '-' :: d.day.digits)

/-- The date that the fields name. -/
def DateFields.date (d : DateFields) : Date :=
  ⟨d.year.value, d.month.value, d.day.value⟩

/-- The characters of a time. -/
def TimeFields.text (t : TimeFields) : List Char :=
  t.hour.digits ++ ':' :: (t.minute.digits ++ ':' :: t.second.digits)

/-- The time that the fields name. -/
def TimeFields.time (t : TimeFields) : TimeOfDay :=
  ⟨t.hour.value, t.minute.value, t.second.value⟩

/-- A year of four digits is within the range of years. -/
theorem DateFields.isValid_iff (d : DateFields) : d.date.isValid = true ↔ d.date.Exists := by
  have hyear : d.year.value < 10000 := d.year.value_lt
  refine Date.isValid_iff_exists ?_ ?_ <;>
    simp only [date, Date.firstYear, Date.lastYear] <;> omega

section Readers

variable (d : DateFields) (t : TimeFields) (rest : List Char)

/-- **A date is taken off a text**, whatever stands behind it. -/
theorem date?_text : date? (d.text ++ rest) = some (d.date, rest) := by
  simp [date?, DateFields.text, year?_field, part?_field, char?_cons, DateFields.date]

theorem time?_text : time? (t.text ++ rest) = some (t.time, rest) := by
  simp [time?, TimeFields.text, part?_field, char?_cons, TimeFields.time]

/-- The exact form has something behind its date. -/
theorem strict?_date : strict? d.text = none := by
  have hday := fixed?_field [] d.day
  rw [List.append_nil] at hday
  simp only [strict?, DateFields.text, ↓bind_fixed?_field, ↓bind_char?_cons]
  rw [hday]
  rfl

/-- Behind date and time the exact form has a fraction, if any, and a zone. -/
theorem strict?_text : strict? (d.text ++ 'T' :: (t.text ++ rest))
    = (fraction? rest).bind fun f => (exactZone? f.2).bind fun z =>
      some ((d.date, t.time), z.2) := by
  simp only [DateFields.text, TimeFields.text, List.append_assoc, List.cons_append]
  simp only [strict?, ↓bind_fixed?_field, ↓bind_char?_cons]
  rw [if_pos (show isTimeMark 'T' = true from rfl)]
  simp only [Option.bind_eq_bind, Option.bind_some, fixed?_field, char?_cons]
  rfl

end Readers

/-! ## Fractions and zones -/

/-- A fraction of a second: a point and digits, at least one. -/
structure Fraction where
  digits : List Char
  isDigits : Scan.IsDigits digits

/-- The characters of a fraction. -/
def Fraction.text (f : Fraction) : List Char :=
  '.' :: f.digits

/-- **A zone of fixed width**: `Z`, or a sign and `dd:dd`. The minus may be the typographic one. -/
inductive Zone where
  | universal
  | offset (sign : Char) (isSign : sign = '+' ∨ sign = '-' ∨ sign = '−')
      (hours minutes : DigitField 2)

namespace Zone

/-- The characters of a zone. -/
def text : Zone → List Char
  | universal => ['Z']
  | offset sign _ hours minutes => sign :: (hours.digits ++ ':' :: minutes.digits)

/-- **A zone that exists**: it is less than a day away from universal time. -/
def Exists : Zone → Prop
  | universal => True
  | offset _ _ hours minutes => hours.value ≤ 23 ∧ minutes.value ≤ 59

instance : DecidablePred Exists
  | universal => .isTrue trivial
  | offset _ _ hours minutes => inferInstanceAs (Decidable (hours.value ≤ 23 ∧ minutes.value ≤ 59))

/-- A zone begins with neither a digit nor a point. -/
theorem exists_cons (z : Zone) :
    ∃ c cs, z.text = c :: cs ∧ Text.isDigit c = false ∧ c ≠ '.' := by
  cases z with
  | universal => exact ⟨'Z', [], rfl, rfl, by decide⟩
  | offset sign isSign hours minutes =>
    refine ⟨sign, _, rfl, ?_⟩
    rcases isSign with rfl | rfl | rfl <;> decide

end Zone

theorem fraction?_text (f : Fraction) (rest : List Char)
    (hrest : ∀ c ∈ rest.head?, Text.isDigit c = false) :
    fraction? (f.text ++ rest) = some (f.digits, rest) := by
  have hspan := Scan.spanDigits_run f.isDigits hrest
  have hne : f.digits.isEmpty = false := List.isEmpty_eq_false_iff.mpr f.isDigits.1
  simp [Fraction.text, fraction?, hspan, hne]

/-- The characters of a fraction, if there is one. -/
def fractionText (f : Option Fraction) : List Char :=
  (f.map Fraction.text).getD []

/-- A fraction in front of a zone is taken off, and none is missed. -/
theorem fraction?_zone (f : Option Fraction) (z : Zone) :
    (fraction? (fractionText f ++ z.text)).map (·.2) = some z.text := by
  obtain ⟨c, cs, htext, hc, hpoint⟩ := z.exists_cons
  cases f with
  | none => simp [fractionText, htext, fraction?, hpoint]
  | some f =>
    have hrest : ∀ c ∈ z.text.head?, Text.isDigit c = false := by
      simpa [htext] using hc
    rw [show fractionText (some f) = f.text from rfl, fraction?_text f _ hrest]
    rfl

/-- **A zone is taken exactly if it exists.** -/
theorem exactZone?_text (z : Zone) :
    (exactZone? z.text).map (·.2) = if z.Exists then some [] else none := by
  cases z with
  | universal => rfl
  | offset sign isSign hours minutes =>
    have hminutes := fixed?_field [] minutes
    rw [List.append_nil] at hminutes
    have hmark : (decide (sign = 'Z') || decide (sign = 'z')) = false := by
      rcases isSign with rfl | rfl | rfl <;> decide
    have hsign : (decide (sign = '+') || decide (sign = '-') || decide (sign = '−')) = true := by
      rcases isSign with rfl | rfl | rfl <;> decide
    have hread : exactZone? (Zone.offset sign isSign hours minutes).text
        = if hours.value ≤ 23 ∧ minutes.value ≤ 59 then
          some (if sign = '+' then (60 * hours.value + minutes.value : Int)
            else -(60 * hours.value + minutes.value : Int), [])
          else none := by
      simp [Zone.text, exactZone?, hmark, hsign, fixed?_field, char?_cons, hminutes]
    by_cases hzone : (Zone.offset sign isSign hours minutes).Exists
    · rw [if_pos hzone, hread, if_pos (show hours.value ≤ 23 ∧ minutes.value ≤ 59 from hzone)]
      rfl
    · rw [if_neg hzone, hread, if_neg (show ¬ (hours.value ≤ 23 ∧ minutes.value ≤ 59) from hzone)]
      rfl

/-- **The exact form** is read from a date and time with a zone exactly if the zone exists. -/
theorem strict?_zoned (d : DateFields) (t : TimeFields) (f : Option Fraction) (z : Zone) :
    strict? (d.text ++ 'T' :: (t.text ++ (fractionText f ++ z.text)))
      = if z.Exists then some ((d.date, t.time), []) else none := by
  obtain ⟨⟨digits, rest⟩, hfraction, rfl⟩ := Option.map_eq_some_iff.mp (fraction?_zone f z)
  have hmap : (exactZone? z.text).bind (fun r => some ((d.date, t.time), r.2))
      = ((exactZone? z.text).map (·.2)).map ((d.date, t.time), ·) := by
    rw [Option.map_map, Option.map_eq_bind]
    rfl
  rw [strict?_text, hfraction, Option.bind_some, hmap, exactZone?_text]
  split <;> rfl

/-! ## What each reader makes of a text -/

section Readers

variable (d : DateFields) (t : TimeFields)

/-- **The reader of dates** takes a date with nothing behind it. -/
theorem isDate_text (rest : List Char) :
    isDate (d.text ++ rest) = true ↔ rest = [] ∧ d.date.Exists := by
  rw [isDate, date?_text]
  cases rest with
  | nil => simp [d.isValid_iff]
  | cons c cs => simp

/-- **The reader of dates with times** takes a date and time with nothing behind them. -/
theorem isDateTime_text (rest : List Char) :
    isDateTime (d.text ++ 'T' :: (t.text ++ rest)) = true
      ↔ rest = [] ∧ d.date.Exists ∧ t.time.Exists := by
  simp only [isDateTime, date?_text, time?_text]
  cases rest with
  | nil => simp [d.isValid_iff, TimeOfDay.isValid_iff_exists]
  | cons c cs => simp

theorem isDateTime_date : isDateTime d.text = false := by
  rw [isDateTime, ← List.append_nil d.text, date?_text]

/-- **The exact reader** takes nothing without a zone. -/
theorem isExact_unzoned (rest : List Char) {digits : List Char}
    (hrest : fraction? rest = some (digits, [])) :
    isExact (d.text ++ 'T' :: (t.text ++ rest)) = false := by
  rw [isExact, strict?_text, hrest]
  rfl

/-- The exact reader takes a date and time with a zone. -/
theorem isExact_zoned (f : Option Fraction) (z : Zone) :
    isExact (d.text ++ 'T' :: (t.text ++ (fractionText f ++ z.text))) = true
      ↔ d.date.Exists ∧ t.time.Exists ∧ z.Exists := by
  rw [isExact, strict?_zoned]
  by_cases hz : z.Exists
  · simp [hz, d.isValid_iff, TimeOfDay.isValid_iff_exists]
  · simp [hz]

end Readers

/-! ## Texts of fixed width -/

/-- **A text of fixed width**, by what stands in it. -/
inductive FixedWidth where
  /-- `dddd-dd-dd`. -/
  | date (d : DateFields)
  /-- `dddd-dd-ddTdd:dd:dd`. -/
  | dateTime (d : DateFields) (t : TimeFields)
  /-- A date and time with a zone, and a fraction or none in front of it. -/
  | zoned (d : DateFields) (t : TimeFields) (fraction : Option Fraction) (zone : Zone)
  /-- A date and time with a fraction but no zone. -/
  | unzoned (d : DateFields) (t : TimeFields) (fraction : Fraction)

namespace FixedWidth

/-- The text. -/
def text : FixedWidth → String
  | date d => String.ofList d.text
  | dateTime d t => String.ofList (d.text ++ 'T' :: t.text)
  | zoned d t fraction zone =>
    String.ofList (d.text ++ 'T' :: (t.text ++ (fractionText fraction ++ zone.text)))
  | unzoned d t fraction => String.ofList (d.text ++ 'T' :: (t.text ++ fraction.text))

/-- **Whether a text of fixed width denotes a date, or a date and time, that exists.** A fraction
is part of a time only in front of a zone. -/
def Denotes : FixedWidth → Prop
  | date d => d.date.Exists
  | dateTime d t => d.date.Exists ∧ t.time.Exists
  | zoned d t _ zone => d.date.Exists ∧ t.time.Exists ∧ zone.Exists
  | unzoned _ _ _ => False

end FixedWidth

end TimeText

open TimeText in
/-- **Timestamps of fixed width.** A text of fixed width is a timestamp exactly if the date in it
exists, and the time and the zone do if it has them; with a fraction but without a zone it is
none. -/
theorem isTimestamp_text_iff (f : FixedWidth) :
    isTimestamp (.str f.text) = true ↔ f.Denotes := by
  simp only [isTimestamp, Bool.or_eq_true]
  cases f with
  | date d =>
    have hdate := isDate_text d []
    have hexact : isExact d.text = false := by rw [isExact, strict?_date]
    rw [List.append_nil] at hdate
    simp [FixedWidth.text, FixedWidth.Denotes, hexact, hdate, isDateTime_date]
  | dateTime d t =>
    have hdateTime := isDateTime_text d t []
    have hexact := isExact_unzoned d t [] rfl
    rw [List.append_nil] at hdateTime hexact
    simp [FixedWidth.text, FixedWidth.Denotes, hexact, isDate_text, hdateTime]
  | zoned d t fraction zone =>
    -- the other two leave the zone over
    obtain ⟨c, cs, hzone, -⟩ := zone.exists_cons
    have hrest : fractionText fraction ++ zone.text ≠ [] := by simp [hzone]
    simp only [FixedWidth.text, FixedWidth.Denotes, String.toList_ofList, isExact_zoned,
      isDate_text, isDateTime_text, hrest, List.cons_ne_nil, false_and, or_false]
  | unzoned d t fraction =>
    have hfraction := fraction?_text fraction [] (by simp)
    rw [List.append_nil] at hfraction
    have hrest : fraction.text ≠ [] := List.cons_ne_nil _ _
    simp only [FixedWidth.text, FixedWidth.Denotes, String.toList_ofList,
      isExact_unzoned d t _ hfraction, isDate_text, isDateTime_text, hrest, List.cons_ne_nil,
      false_and, or_false, Bool.false_eq_true]

end IntentContract
