import Flowline.Calendar.Timestamp
import Flowline.Proofs.Calendar.Date
import Flowline.Proofs.Calendar.Scan

/-!
# Timestamps read back

`Timestamp.readLoose` takes many forms, `Instant.text` writes one. Whatever has been read is an
instant between the first and the last day that can be named, with a leap second only in the last
second of a minute (`Timestamp.inRange_of_readLoose`), and every such instant is read back from its
text (`Timestamp.readLoose_text`).

* `Timestamp.readLoose_text_of_readLoose`: an instant that was read is read back from its text.
-/

namespace Flowline

/-- An instant that a timestamp can name. -/
structure Instant.InRange (t : Instant) : Prop where
  first : Calendar.dayNumber Calendar.firstYear 1 1 ≤ t.day
  last : t.day ≤ Calendar.dayNumber Calendar.lastYear 12 31
  second_lt : t.second < 86400
  nano_lt : t.nano < 2000000000
  /-- A leap second follows the last second of a minute. -/
  leap : 1000000000 ≤ t.nano → t.second % 60 = 59

namespace Scan

/-- The second of the day in universal time, which may lie before or behind the written day. -/
def Fields.universal (f : Fields) : Int :=
  (f.hour * 3600 + f.minute * 60 + (if f.second = 60 then 59 else f.second) : Nat) - f.offset

/-- The instant that the fields name, wherever it lies. -/
def Fields.instant (f : Fields) : Instant :=
  ⟨Calendar.dayNumber f.year f.month f.day + f.universal / 86400, (f.universal % 86400).toNat,
    f.nano + if f.second = 60 then 1000000000 else 0⟩

theorem Fields.toInstant_eq (f : Fields) :
    f.toInstant =
      if !Calendar.isDate f.year f.month f.day then .error .outOfRange
      else if f.weekday.any
          (· != Calendar.weekday (Calendar.dayNumber f.year f.month f.day)) then .error .impossible
      else if !(-86400 < f.offset ∧ f.offset < 86400) then .error .outOfRange
      else if f.instant.day < Calendar.dayNumber Calendar.firstYear 1 1 ∨
          Calendar.dayNumber Calendar.lastYear 12 31 < f.instant.day then .error .impossible
      else .ok f.instant :=
  rfl

theorem Fields.eq_instant_of_toInstant {f : Fields} {t : Instant} (named : f.toInstant = .ok t) :
    t = f.instant ∧ Calendar.dayNumber Calendar.firstYear 1 1 ≤ t.day ∧
      t.day ≤ Calendar.dayNumber Calendar.lastYear 12 31 := by
  rw [toInstant_eq] at named
  split at named
  · cases named
  · split at named
    · cases named
    · split at named
      · cases named
      · split at named
        · cases named
        · next inside =>
            obtain ⟨first, last⟩ := not_or.1 inside
            cases named
            exact ⟨rfl, Int.not_lt.1 first, Int.not_lt.1 last⟩

theorem Fields.toInstant_eq_ok {f : Fields} (date : Calendar.isDate f.year f.month f.day = true)
    (weekday : f.weekday = none) (near : -86400 < f.offset ∧ f.offset < 86400)
    (first : Calendar.dayNumber Calendar.firstYear 1 1 ≤ f.instant.day)
    (last : f.instant.day ≤ Calendar.dayNumber Calendar.lastYear 12 31) :
    f.toInstant = .ok f.instant := by
  have inside : ¬ (f.instant.day < Calendar.dayNumber Calendar.firstYear 1 1 ∨
      Calendar.dayNumber Calendar.lastYear 12 31 < f.instant.day) :=
    not_or.2 ⟨Int.not_lt.2 first, Int.not_lt.2 last⟩
  rw [toInstant_eq, date, weekday, if_neg inside]
  simp [near]

theorem Fields.toInstant_inRange {f : Fields} {t : Instant} (nano : f.nano < 10 ^ 9)
    (minutes : f.offset % 60 = 0) (named : f.toInstant = .ok t) : t.InRange := by
  obtain ⟨rfl, first, last⟩ := Fields.eq_instant_of_toInstant named
  refine ⟨first, last, ?_, ?_, ?_⟩
  · simp only [Fields.instant]
    omega
  · simp only [Fields.instant]
    split <;> omega
  · intro leap
    have sixty : f.second = 60 := by
      by_contra other
      simp only [Fields.instant, if_neg other] at leap
      omega
    simp only [Fields.instant, Fields.universal, if_pos sixty]
    omega

end Scan

namespace Timestamp

open Scan

theorem looseOffset_minutes : Yields looseOffset (· % 60 = 0) := by
  refine yields_bind fun text => ?_
  split
  · exact yields_bind fun _ => yields_pure rfl
  · exact offset_minutes

/-- What the loose form leaves open of the fraction and the offset. -/
theorem scanLoose_yields : Yields scanLoose fun f => f.nano < 10 ^ 9 ∧ f.offset % 60 = 0 := by
  refine yields_bind fun year => yields_bind fun _ => yields_bind fun month => yields_bind fun _ =>
    yields_bind fun day => yields_bind fun _ => yields_bind fun hour => yields_bind fun _ =>
    yields_bind fun minute => yields_bind fun _ => yields_bind fun second => ?_
  refine fraction_lt.bind fun nano nano_lt => yields_bind fun _ => ?_
  refine looseOffset_minutes.bind fun offset offset_minutes => yields_bind fun _ => ?_
  exact yields_pure ⟨nano_lt, offset_minutes⟩

theorem runAll_eq_ok_iff {scan : Scan Scan.Fields} {text : List Char} {t : Instant} :
    runAll scan text = .ok t ↔ ∃ f, Takes scan text f [] ∧ f.toInstant = .ok t := by
  unfold runAll Takes
  cases run : scan.run text with
  | error e => simp [bind, Except.bind]
  | ok found =>
      obtain ⟨f, rest⟩ := found
      cases rest with
      | nil => simp [bind, Except.bind]
      | cons c rest => simp [bind, Except.bind, throw, throwThe, MonadExceptOf.throw]

/-- What has been read can be named: nothing else passes the checks on the fields. -/
theorem inRange_of_readLoose {s : String} {t : Instant} (read : readLoose s = .ok t) :
    t.InRange := by
  obtain ⟨f, taken, named⟩ := runAll_eq_ok_iff.1 read
  obtain ⟨nano_lt, minutes⟩ := scanLoose_yields _ _ _ taken
  exact Scan.Fields.toInstant_inRange nano_lt minutes named

/-! ## Reading what was written -/

variable {rest : List Char}

theorem takes_blanks {c : Char} (dark : isBlank c = false) :
    Takes blanks (c :: rest) () (c :: rest) := by
  simp [blanks, trimStartChars, dark]

theorem takes_looseChar {c : Char} (dark : isBlank c = false) :
    Takes (looseChar c) (c :: rest) () rest :=
  takes_bind_iff.2 ⟨(), c :: rest, takes_blanks dark, by simp [Scan.char]⟩

/-- The digits of a number begin with one that is no blank and no sign. -/
theorem exists_padded_eq_cons (width n : Nat) :
    ∃ c cs, Instant.padded width n = c :: cs ∧ isDigit c = true := by
  obtain ⟨c, cs, shape⟩ := List.exists_cons_of_ne_nil (Instant.padded_ne_nil width n)
  have mem : c ∈ Instant.padded width n := shape ▸ List.mem_cons_self
  exact ⟨c, cs, shape, Instant.isDigit_of_mem_padded mem⟩

theorem takes_looseNumber {low high n : Nat} (low_le : low ≤ n) (le_high : n ≤ high)
    (two : high < 100) :
    Takes (looseNumber low high) (Instant.padded 2 n ++ rest) n rest := by
  have length := Instant.length_padded 2 n (by decide) (by omega)
  have number : Takes (number 1 2) (Instant.padded 2 n ++ rest) n rest :=
    takes_number_padded (Nat.lt_trans (Nat.lt_of_le_of_lt le_high two) (by decide))
      (Nat.le_of_eq length) (Or.inl length)
  obtain ⟨c, cs, shape, digit⟩ := exists_padded_eq_cons 2 n
  rw [shape] at number ⊢
  exact takes_bind_iff.2 ⟨(), _, takes_blanks (isBlank_of_isDigit digit),
    takes_bounded_iff.2 ⟨number, low_le, le_high⟩⟩

theorem takes_looseYear {year : Int} (first : Calendar.firstYear ≤ year)
    (last : year ≤ Calendar.lastYear) :
    Takes looseYear (Instant.yearText year ++ '-' :: rest) year ('-' :: rest) := by
  have dash : ∀ c ∈ ('-' :: rest).head?, isDigit c = false := by
    intro c head
    cases head
    decide
  have bounds : -262143 ≤ year ∧ year ≤ 262142 := ⟨first, last⟩
  have word : -Int.pow 2 31 ≤ year ∧ year < Int.pow 2 31 := by
    have power : Int.pow 2 31 = 2147483648 := by decide
    rw [power]
    omega
  have checked : Takes (if -Int.pow 2 31 ≤ year ∧ year < Int.pow 2 31 then pure year
      else throw .outOfRange) ('-' :: rest) year ('-' :: rest) := by
    rw [if_pos word]
    exact takes_pure_iff.2 ⟨rfl, rfl⟩
  -- Behind a sign the digits go as far as the dash.
  have signed : Takes (number 1 (Instant.padded 4 year.natAbs ++ '-' :: rest).length.succ)
      (Instant.padded 4 year.natAbs ++ '-' :: rest) year.natAbs ('-' :: rest) :=
    takes_number_padded (Nat.lt_of_le_of_lt (m := 262143) (by omega) (by decide))
      (by rw [List.length_append]; omega) (Or.inr dash)
  unfold Instant.yearText
  split
  · next small =>
      have length := Instant.length_padded 4 year.toNat (by decide) (by omega)
      have number : Takes (number 1 4) (Instant.padded 4 year.toNat ++ '-' :: rest) year.toNat
          ('-' :: rest) :=
        takes_number_padded (Nat.lt_of_le_of_lt (m := 9999) (by omega) (by decide))
          (Nat.le_of_eq length) (Or.inl length)
      obtain ⟨c, cs, shape, digit⟩ := exists_padded_eq_cons 4 year.toNat
      have whole : (year.toNat : Int) = year := Int.toNat_of_nonneg small.1
      rw [shape] at number ⊢
      refine takes_bind_iff.2 ⟨(), _, takes_blanks (isBlank_of_isDigit digit), ?_⟩
      refine takes_bind_iff.2 ⟨_, _, takes_get_iff.2 ⟨rfl, rfl⟩, ?_⟩
      dsimp only
      split
      · next minus => cases minus; cases digit
      · next plus => cases plus; cases digit
      · refine takes_bind_iff.2 ⟨_, _, number, takes_bind_iff.2
          ⟨_, _, takes_pure_iff.2 ⟨rfl, rfl⟩, ?_⟩⟩
        rw [whole]
        exact checked
  · split
    · next negative =>
        have whole : -(year.natAbs : Int) = year := by omega
        refine takes_bind_iff.2 ⟨(), _, takes_blanks (by decide), ?_⟩
        refine takes_bind_iff.2 ⟨_, _, takes_get_iff.2 ⟨rfl, rfl⟩, ?_⟩
        refine takes_bind_iff.2 ⟨(), _, takes_set_iff.2 rfl, takes_bind_iff.2 ⟨_, _, signed,
          takes_bind_iff.2 ⟨_, _, takes_pure_iff.2 ⟨rfl, rfl⟩, ?_⟩⟩⟩
        rw [whole]
        exact checked
    · next positive =>
        have whole : (year.natAbs : Int) = year := by omega
        refine takes_bind_iff.2 ⟨(), _, takes_blanks (by decide), ?_⟩
        refine takes_bind_iff.2 ⟨_, _, takes_get_iff.2 ⟨rfl, rfl⟩, ?_⟩
        refine takes_bind_iff.2 ⟨(), _, takes_set_iff.2 rfl, takes_bind_iff.2 ⟨_, _, signed,
          takes_bind_iff.2 ⟨_, _, takes_pure_iff.2 ⟨rfl, rfl⟩, ?_⟩⟩⟩
        rw [whole]
        exact checked

/-- The fields that the text of an instant shows. -/
def shown (t : Instant) : Scan.Fields where
  year := (Calendar.dateOfDay t.day).1
  month := (Calendar.dateOfDay t.day).2.1
  day := (Calendar.dateOfDay t.day).2.2
  hour := t.second / 3600
  minute := t.second / 60 % 60
  second := t.second % 60 + if 1000000000 ≤ t.nano then 1 else 0
  nano := if 1000000000 ≤ t.nano then t.nano - 1000000000 else t.nano
  offset := 0

theorem takes_scanLoose_text {t : Instant} (inside : t.InRange) :
    Takes scanLoose t.text.toList (shown t) [] := by
  have date := Calendar.isDate_dateOfDay inside.first inside.last
  simp only [Calendar.isDate, Bool.and_eq_true, decide_eq_true_eq] at date
  obtain ⟨⟨first, last, month_low, month_high, day_low⟩, day_high⟩ := date
  have day_le : (Calendar.dateOfDay t.day).2.2 ≤ 31 := by
    refine Nat.le_trans day_high ?_
    unfold Calendar.daysInMonth
    split
    · split <;> decide
    · split <;> decide
  have second_lt := inside.second_lt
  have nano_lt := inside.nano_lt
  have nano : (shown t).nano < 10 ^ 9 := by
    simp only [shown]
    split <;> omega
  have second : (shown t).second ≤ 60 := by
    simp only [shown]
    split <;> omega
  unfold Instant.text
  rw [String.toList_ofList]
  simp only [List.append_assoc, List.cons_append]
  refine takes_bind_iff.2 ⟨_, _, takes_looseYear first last, ?_⟩
  refine takes_bind_iff.2 ⟨(), _, takes_looseChar (by decide), ?_⟩
  refine takes_bind_iff.2 ⟨_, _, takes_looseNumber month_low month_high (by decide), ?_⟩
  refine takes_bind_iff.2 ⟨(), _, takes_looseChar (by decide), ?_⟩
  refine takes_bind_iff.2 ⟨_, _, takes_looseNumber day_low day_le (by decide), ?_⟩
  refine takes_bind_iff.2 ⟨(), _, rfl, ?_⟩
  refine takes_bind_iff.2 ⟨_, _, takes_looseNumber (Nat.zero_le _)
    (show (shown t).hour ≤ 23 by simp only [shown]; omega) (by decide), ?_⟩
  refine takes_bind_iff.2 ⟨(), _, takes_looseChar (by decide), ?_⟩
  refine takes_bind_iff.2 ⟨_, _, takes_looseNumber (Nat.zero_le _)
    (show (shown t).minute ≤ 59 by simp only [shown]; omega) (by decide), ?_⟩
  refine takes_bind_iff.2 ⟨(), _, takes_looseChar (by decide), ?_⟩
  refine takes_bind_iff.2 ⟨_, _, takes_looseNumber (Nat.zero_le _) second (by decide), ?_⟩
  refine takes_bind_iff.2 ⟨_, _, takes_fraction_text nano ?_, ?_⟩
  · intro c head
    cases head
    decide
  · exact rfl

theorem instant_shown {t : Instant} (inside : t.InRange) : (shown t).instant = t := by
  have second_lt := inside.second_lt
  have leap := inside.leap
  have sixty : (shown t).second = 60 ↔ 1000000000 ≤ t.nano := by
    simp only [shown]
    split
    · next late => exact iff_of_true (by rw [leap late]) late
    · next early => exact iff_of_false (by omega) early
  have universal : (shown t).universal = t.second := by
    unfold Scan.Fields.universal
    simp only [sixty]
    simp only [shown]
    split
    · next late =>
        have last_second := leap late
        omega
    · omega
  have day : Calendar.dayNumber (shown t).year (shown t).month (shown t).day = t.day :=
    Calendar.dayNumber_dateOfDay t.day
  have nano : (shown t).nano + (if (shown t).second = 60 then 1000000000 else 0) = t.nano := by
    simp only [sixty]
    simp only [shown]
    split <;> omega
  have same_day : (t.second : Int) / 86400 = 0 := by omega
  have same_second : ((t.second : Int) % 86400).toNat = t.second := by omega
  unfold Scan.Fields.instant
  rw [universal, day, nano, same_day, same_second, Int.add_zero]

theorem toInstant_shown {t : Instant} (inside : t.InRange) : (shown t).toInstant = .ok t := by
  have named := instant_shown inside
  have found := Scan.Fields.toInstant_eq_ok (f := shown t)
    (Calendar.isDate_dateOfDay inside.first inside.last) rfl
    (show (-86400 : Int) < 0 ∧ (0 : Int) < 86400 by decide)
    (by rw [named]; exact inside.first) (by rw [named]; exact inside.last)
  rw [found, named]

/-- An instant that can be named is read back from its text. -/
theorem readLoose_text {t : Instant} (inside : t.InRange) : readLoose t.text = .ok t :=
  runAll_eq_ok_iff.2 ⟨shown t, takes_scanLoose_text inside, toInstant_shown inside⟩

theorem readLoose_text_of_readLoose {s : String} {t : Instant} (read : readLoose s = .ok t) :
    readLoose t.text = .ok t :=
  readLoose_text (inRange_of_readLoose read)

-- A leap second that falls on the next day, a leap day, in universal time.
example : (readLoose "2024-2-28 23:59:60.5-00:30").map Instant.text =
    .ok "2024-02-29T00:29:60.500Z" := by
  decide +kernel

end Timestamp

end Flowline
