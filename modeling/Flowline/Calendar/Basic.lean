import Flowline.Number.Numeral

/-!
# Dates and instants

Days are counted from the first day of 1970 in the Gregorian calendar, extended to all years. An
`Instant` is a time of day on such a day, in universal time; a leap second is the last second of
its minute with a fraction of one second or more.
-/

namespace Flowline

namespace Calendar

/-- The year has a 29 February. -/
def isLeapYear (year : Int) : Bool := year % 4 == 0 && (year % 100 != 0 || year % 400 == 0)

/-- How many days a month has. -/
def daysInMonth (year : Int) (month : Nat) : Nat :=
  if month = 2 then (if isLeapYear year then 29 else 28)
  else if month = 4 ∨ month = 6 ∨ month = 9 ∨ month = 11 then 30 else 31

/-- The first and last year that can be named. -/
def firstYear : Int := -262143
def lastYear : Int := 262142

/-- The day exists. -/
def isDate (year : Int) (month day : Nat) : Bool :=
  decide (firstYear ≤ year ∧ year ≤ lastYear ∧ 1 ≤ month ∧ month ≤ 12 ∧ 1 ≤ day) &&
    decide (day ≤ daysInMonth year month)

/-- Days before the first of a month, when years begin in March. -/
def daysBeforeMonth (monthFromMarch : Nat) : Nat := (153 * monthFromMarch + 2) / 5

/-- The number of a day, 1 January 1970 being day 0. -/
def dayNumber (year : Int) (month day : Nat) : Int :=
  let y := if month ≤ 2 then year - 1 else year
  let fromMarch := (month + 9) % 12
  365 * y + y / 4 - y / 100 + y / 400 + daysBeforeMonth fromMarch + day - 719469

/-- The date of a numbered day: year, month, day. -/
def dateOfDay (n : Int) : Int × Nat × Nat :=
  let z := n + 719468
  let era := z / 146097
  let dayOfEra := (z % 146097).toNat
  let yearOfEra := (dayOfEra - dayOfEra / 1460 + dayOfEra / 36524 - dayOfEra / 146096) / 365
  let dayOfYear := dayOfEra - (365 * yearOfEra + yearOfEra / 4 - yearOfEra / 100)
  let fromMarch := (5 * dayOfYear + 2) / 153
  let day := dayOfYear - daysBeforeMonth fromMarch + 1
  let month := if fromMarch < 10 then fromMarch + 3 else fromMarch - 9
  let year := yearOfEra + era * 400
  (if month ≤ 2 then year + 1 else year, month, day)

/-- The day of the week, Monday being 0. -/
def weekday (n : Int) : Nat := ((n + 3) % 7).toNat

end Calendar

/-- A point in time: the number of the day, the second of the day, and nanoseconds, which reach
into a second billion during a leap second. -/
structure Instant where
  day : Int
  second : Nat
  nano : Nat
deriving DecidableEq, Inhabited

namespace Instant

/-- Not after. -/
def le (a b : Instant) : Bool :=
  a.day < b.day || (a.day == b.day &&
    (a.second < b.second || (a.second == b.second && a.nano ≤ b.nano)))

/-- The instant so many milliseconds after the beginning of 1970. -/
def ofMillis (ms : Nat) : Instant :=
  ⟨ms / 86400000, ms / 1000 % 86400, ms % 1000 * 1000000⟩

/-- A number with at least so many digits. -/
def padded (width n : Nat) : List Char :=
  let digits := Decimal.digitChars n
  List.replicate (width - digits.length) '0' ++ digits

/-- The year, with a sign when it has not four digits. -/
def yearText (year : Int) : List Char :=
  if 0 ≤ year ∧ year ≤ 9999 then padded 4 year.toNat
  else (if year < 0 then '-' else '+') :: padded 4 year.natAbs

/-- The fraction of a second with 3, 6 or 9 digits, nothing if it is zero. -/
def fractionText (nano : Nat) : List Char :=
  if nano = 0 then []
  else if nano % 1000000 = 0 then '.' :: padded 3 (nano / 1000000)
  else if nano % 1000 = 0 then '.' :: padded 6 (nano / 1000)
  else '.' :: padded 9 nano

/-- The instant as date and time of day in universal time. -/
def text (t : Instant) : String :=
  let (year, month, day) := Calendar.dateOfDay t.day
  let leap := 1000000000 ≤ t.nano
  let second := t.second % 60 + (if leap then 1 else 0)
  let nano := if leap then t.nano - 1000000000 else t.nano
  String.ofList <| yearText year ++ '-' :: padded 2 month ++ '-' :: padded 2 day ++
    'T' :: padded 2 (t.second / 3600) ++ ':' :: padded 2 (t.second / 60 % 60) ++
    ':' :: padded 2 second ++ fractionText nano ++ ['Z']

end Instant

end Flowline
