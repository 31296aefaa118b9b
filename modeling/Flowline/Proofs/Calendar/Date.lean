import Flowline.Calendar.Basic
import Mathlib.Tactic.IntervalCases

/-!
# Numbered days and their dates

An era is 400 years that begin in March, and so always 146097 days. `Calendar.dateOfDay` selects
the year of the era, then the month, counted from March so that the leap day comes last.

* `Calendar.daysBeforeYear_yearOfEra`, `Calendar.lt_daysBeforeYear`: the day lies between the first
  day of its year and the first day of the next one.
* `Calendar.dayNumber_dateOfDay`: the date of a numbered day has that number.
* `Calendar.isDate_dateOfDay`: it is a date that exists, if the day lies in the years that can be
  named.
-/

namespace Flowline.Calendar

/-! ## The year within an era -/

/-- The year of an era that a day of the era falls in. -/
def yearOfEra (dayOfEra : Nat) : Nat :=
  (dayOfEra - dayOfEra / 1460 + dayOfEra / 36524 - dayOfEra / 146096) / 365

/-- The days of an era before one of its years. -/
def daysBeforeYear (year : Nat) : Nat := 365 * year + year / 4 - year / 100 + year / 400

theorem succ_div_eq (n k : Nat) : (n + 1) / k = n / k + if (n + 1) % k = 0 then 1 else 0 := by
  simp only [Nat.succ_div, Nat.dvd_iff_mod_eq_zero]

theorem isLeapYear_natCast (year : Nat) :
    isLeapYear year = decide (year % 4 = 0 ∧ (year % 100 ≠ 0 ∨ year % 400 = 0)) := by
  rw [Bool.eq_iff_iff]
  simp only [isLeapYear, Bool.and_eq_true, Bool.or_eq_true, beq_iff_eq, bne_iff_ne,
    decide_eq_true_eq]
  norm_cast

theorem isLeapYear_add_eras (year era : Int) : isLeapYear (year + era * 400) = isLeapYear year := by
  have fours : (year + era * 400) % 4 = year % 4 := by omega
  have centuries : (year + era * 400) % 100 = year % 100 := by omega
  have eras : (year + era * 400) % 400 = year % 400 := by omega
  rw [isLeapYear, isLeapYear, fours, centuries, eras]

theorem daysBeforeYear_succ (year : Nat) :
    daysBeforeYear (year + 1) = daysBeforeYear year +
      if isLeapYear (year + 1 : Nat) then 366 else 365 := by
  have centuries : year / 100 ≤ year / 4 := Nat.div_le_div_left (by decide) (by decide)
  have of_four : (year + 1) % 100 = 0 → (year + 1) % 4 = 0 := by omega
  have of_hundred : (year + 1) % 400 = 0 → (year + 1) % 100 = 0 := by omega
  rw [isLeapYear_natCast]
  unfold daysBeforeYear
  rw [succ_div_eq year 4, succ_div_eq year 100, succ_div_eq year 400]
  by_cases four : (year + 1) % 4 = 0
  · by_cases hundred : (year + 1) % 100 = 0
    · by_cases era : (year + 1) % 400 = 0
      · simp [four, hundred, era]
        omega
      · simp [four, hundred, era]
        omega
    · simp [four, hundred, mt of_hundred hundred]
      omega
  · simp [four, mt of_four four, mt of_hundred (mt of_four four)]
    omega

theorem yearOfEra_lt {dayOfEra : Nat} (inside : dayOfEra < 146097) : yearOfEra dayOfEra < 400 := by
  unfold yearOfEra
  omega

/-- The century of the year is that of the day, the last day of the era apart. -/
theorem century_yearOfEra {dayOfEra : Nat} (inside : dayOfEra < 146096) :
    yearOfEra dayOfEra / 100 = dayOfEra / 36524 := by
  have century : dayOfEra / 36524 ≤ 3 := by omega
  have early : dayOfEra / 146096 = 0 := by omega
  unfold yearOfEra
  rw [early]
  generalize named : dayOfEra / 36524 = c at century ⊢
  have low : 36524 * c ≤ dayOfEra := by omega
  have high : dayOfEra < 36524 * c + 36524 := by omega
  interval_cases c <;> omega

/-- What the division by 365 says of a day and its year, the last day of the era apart. -/
theorem yearOfEra_bounds {dayOfEra : Nat} (inside : dayOfEra < 146096) :
    365 * yearOfEra dayOfEra + dayOfEra / 1460 ≤ dayOfEra + dayOfEra / 36524 ∧
      dayOfEra + dayOfEra / 36524 < 365 * yearOfEra dayOfEra + 365 + dayOfEra / 1460 := by
  have early : dayOfEra / 146096 = 0 := by omega
  have fourths : dayOfEra / 1460 ≤ dayOfEra := Nat.div_le_self _ _
  unfold yearOfEra
  rw [early]
  omega

theorem daysBeforeYear_yearOfEra {dayOfEra : Nat} (inside : dayOfEra < 146097) :
    daysBeforeYear (yearOfEra dayOfEra) ≤ dayOfEra := by
  by_cases last : dayOfEra = 146096
  · subst last
    decide
  · have before : dayOfEra < 146096 := by omega
    have century := century_yearOfEra before
    have bounds := yearOfEra_bounds before
    have within := yearOfEra_lt inside
    unfold daysBeforeYear
    generalize yearOfEra dayOfEra = year at *
    have fourths : year / 4 ≤ dayOfEra / 1460 := by omega
    omega

theorem lt_daysBeforeYear {dayOfEra : Nat} (inside : dayOfEra < 146097) :
    dayOfEra < daysBeforeYear (yearOfEra dayOfEra + 1) := by
  by_cases last : dayOfEra = 146096
  · subst last
    decide
  · have before : dayOfEra < 146096 := by omega
    have century := century_yearOfEra before
    have bounds := yearOfEra_bounds before
    have within := yearOfEra_lt inside
    unfold daysBeforeYear
    generalize yearOfEra dayOfEra = year at *
    by_cases turn : (year + 1) % 100 = 0
    · have whole : year + 1 = 100 * (dayOfEra / 36524 + 1) := by omega
      rw [whole]
      omega
    · have same : (year + 1) / 100 = dayOfEra / 36524 := by omega
      have fourths : dayOfEra / 1460 ≤ (year + 1) / 4 := by omega
      omega

/-! ## The month within a year -/

/-- The month that a day of a year falls in, both counted from March. -/
def monthOfYear (dayOfYear : Nat) : Nat := (5 * dayOfYear + 2) / 153

/-- The usual number of a month that is counted from March. -/
def monthNumber (fromMarch : Nat) : Nat :=
  if fromMarch < 10 then fromMarch + 3 else fromMarch - 9

theorem month_of_dayOfYear {dayOfYear : Nat} (inside : dayOfYear < 366) :
    monthOfYear dayOfYear < 12 ∧ daysBeforeMonth (monthOfYear dayOfYear) ≤ dayOfYear := by
  unfold monthOfYear daysBeforeMonth
  omega

/-- The day is no later than its month is long; the leap day is the last of the year. -/
theorem day_le_daysInMonth {dayOfYear : Nat} {year : Int} (inside : dayOfYear < 366)
    (leap : dayOfYear = 365 → isLeapYear year = true) :
    dayOfYear - daysBeforeMonth (monthOfYear dayOfYear) + 1 ≤
      daysInMonth year (monthNumber (monthOfYear dayOfYear)) := by
  have month := (month_of_dayOfYear inside).1
  have after : dayOfYear < daysBeforeMonth (monthOfYear dayOfYear + 1) := by
    unfold monthOfYear daysBeforeMonth
    omega
  have before := (month_of_dayOfYear inside).2
  generalize monthOfYear dayOfYear = m at *
  unfold daysBeforeMonth at after before ⊢
  by_cases last : dayOfYear = 365
  · have february : m = 11 := by omega
    subst february last
    simp [daysInMonth, monthNumber, leap]
  · have common : 28 ≤ if isLeapYear year then 29 else 28 := by split <;> decide
    interval_cases m <;> simp [daysInMonth, monthNumber] <;> omega

/-! ## The date of a day -/

/-- The date of a day of a year of an era. -/
def dateAt (era : Int) (year dayOfYear : Nat) : Int × Nat × Nat :=
  let month := monthNumber (monthOfYear dayOfYear)
  (if month ≤ 2 then year + era * 400 + 1 else year + era * 400, month,
    dayOfYear - daysBeforeMonth (monthOfYear dayOfYear) + 1)

/-- Every day is a day of a year of an era; a year has a day 365 only if its last month is a long
February. -/
theorem dateOfDay_eq_dateAt (n : Int) :
    ∃ (era : Int) (year dayOfYear : Nat), year < 400 ∧ dayOfYear < 366 ∧
      (dayOfYear = 365 → isLeapYear (year + 1 : Nat) = true) ∧
      n + 719468 = 146097 * era + daysBeforeYear year + dayOfYear ∧
      dateOfDay n = dateAt era year dayOfYear := by
  obtain ⟨dayOfEra, named⟩ : ∃ d : Nat, (d : Int) = (n + 719468) % 146097 :=
    ⟨((n + 719468) % 146097).toNat, Int.toNat_of_nonneg (by omega)⟩
  have inside : dayOfEra < 146097 := by omega
  have year_lt := yearOfEra_lt inside
  have before := daysBeforeYear_yearOfEra inside
  have after := lt_daysBeforeYear inside
  rw [daysBeforeYear_succ] at after
  refine ⟨(n + 719468) / 146097, yearOfEra dayOfEra,
    dayOfEra - daysBeforeYear (yearOfEra dayOfEra), year_lt, ?_, ?_, ?_, ?_⟩
  · split at after <;> omega
  · intro last
    by_contra common
    rw [if_neg common] at after
    omega
  · omega
  · have recovered : ((n + 719468) % 146097).toNat = dayOfEra := by omega
    have first_era : yearOfEra dayOfEra / 400 = 0 := by omega
    have same : daysBeforeYear (yearOfEra dayOfEra) =
        365 * yearOfEra dayOfEra + yearOfEra dayOfEra / 4 - yearOfEra dayOfEra / 100 := by
      rw [daysBeforeYear, first_era, Nat.add_zero]
    rw [same]
    subst recovered
    rfl

theorem monthNumber_bounds {m : Nat} (month : m < 12) :
    1 ≤ monthNumber m ∧ monthNumber m ≤ 12 ∧ (monthNumber m + 9) % 12 = m := by
  unfold monthNumber
  split <;> omega

/-- A day's number, from the year and the month that are counted from March. -/
theorem dayNumber_monthNumber (year : Int) {m : Nat} (month : m < 12) (day : Nat) :
    dayNumber (if monthNumber m ≤ 2 then year + 1 else year) (monthNumber m) day =
      365 * year + year / 4 - year / 100 + year / 400 + daysBeforeMonth m + day - 719469 := by
  unfold dayNumber
  rw [(monthNumber_bounds month).2.2]
  split
  · rw [Int.add_sub_cancel]
  · rfl

theorem dayNumber_dateAt (era : Int) {year dayOfYear : Nat} (year_lt : year < 400)
    (day_lt : dayOfYear < 366) :
    dayNumber (dateAt era year dayOfYear).1 (dateAt era year dayOfYear).2.1
        (dateAt era year dayOfYear).2.2 =
      146097 * era + daysBeforeYear year + dayOfYear - 719468 := by
  obtain ⟨month_lt, before⟩ := month_of_dayOfYear day_lt
  have fours : ((year : Int) + era * 400) / 4 = (year / 4 : Nat) + era * 100 := by omega
  have centuries : ((year : Int) + era * 400) / 100 = (year / 100 : Nat) + era * 4 := by omega
  have eras : ((year : Int) + era * 400) / 400 = era := by omega
  have whole := dayNumber_monthNumber (year + era * 400) month_lt
    (dayOfYear - daysBeforeMonth (monthOfYear dayOfYear) + 1)
  rw [fours, centuries, eras] at whole
  refine whole.trans ?_
  unfold daysBeforeYear
  omega

theorem dayNumber_dateOfDay (n : Int) :
    dayNumber (dateOfDay n).1 (dateOfDay n).2.1 (dateOfDay n).2.2 = n := by
  obtain ⟨era, year, dayOfYear, year_lt, day_lt, -, number, date⟩ := dateOfDay_eq_dateAt n
  rw [date, dayNumber_dateAt era year_lt day_lt]
  omega

/-- The years that can be named are those of the days from the first to the last of them. -/
theorem year_dateAt_mem (era : Int) {year dayOfYear : Nat} (year_lt : year < 400)
    (day_lt : dayOfYear < 366)
    (low : dayNumber firstYear 1 1 + 719468 ≤ 146097 * era + daysBeforeYear year + dayOfYear)
    (high : 146097 * era + daysBeforeYear year + dayOfYear ≤
      dayNumber lastYear 12 31 + 719468) :
    firstYear ≤ (dateAt era year dayOfYear).1 ∧ (dateAt era year dayOfYear).1 ≤ lastYear := by
  have first : dayNumber firstYear 1 1 = -96465292 := by decide
  have last : dayNumber lastYear 12 31 = 95026236 := by decide
  have carry : monthNumber (monthOfYear dayOfYear) ≤ 2 ↔ 306 ≤ dayOfYear := by
    unfold monthNumber monthOfYear
    split <;> omega
  rw [first] at low
  rw [last] at high
  unfold daysBeforeYear at low high
  simp only [dateAt, firstYear, lastYear, carry]
  have first_era : -656 ≤ era := by omega
  have last_era : era ≤ 655 := by omega
  have after_first : era = -656 → 256 ≤ year ∧ (year = 256 → 306 ≤ dayOfYear) := by omega
  have before_last : era = 655 → year ≤ 142 ∧ (year = 142 → dayOfYear < 306) := by omega
  split
  · omega
  · omega

/-- The years that can be named are those of the days that can be numbered. -/
theorem isDate_dateOfDay {n : Int} (low : dayNumber firstYear 1 1 ≤ n)
    (high : n ≤ dayNumber lastYear 12 31) :
    isDate (dateOfDay n).1 (dateOfDay n).2.1 (dateOfDay n).2.2 = true := by
  obtain ⟨era, year, dayOfYear, year_lt, day_lt, leap, number, date⟩ := dateOfDay_eq_dateAt n
  have month := monthNumber_bounds (month_of_dayOfYear day_lt).1
  have named := year_dateAt_mem era year_lt day_lt (by omega) (by omega)
  have day : (dateAt era year dayOfYear).2.2 ≤
      daysInMonth (dateAt era year dayOfYear).1 (dateAt era year dayOfYear).2.1 := by
    refine day_le_daysInMonth day_lt fun last => ?_
    have later := leap last
    subst last
    have same : (dateAt era year 365).1 = (year + 1 : Nat) + era * 400 := by
      have february : monthNumber (monthOfYear 365) ≤ 2 := by decide
      rw [dateAt, if_pos february]
      omega
    rw [same, isLeapYear_add_eras]
    exact later
  rw [date]
  simp only [isDate, Bool.and_eq_true, decide_eq_true_eq]
  exact ⟨⟨named.1, named.2, month.1, month.2.1, Nat.le_add_left 1 _⟩, day⟩

end Flowline.Calendar
