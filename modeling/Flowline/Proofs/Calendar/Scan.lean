import Flowline.Calendar.Scan
import Flowline.Proofs.Number.Numeral

/-!
# What a scan takes

`Scan.Takes s text a rest` says that the scan `s` reads `a` from the front of `text` and leaves
`rest`. A scan that is made of parts takes what its parts take one after the other
(`takes_bind_iff`), so both what a scan has read and what it is going to read are found part by
part.

* `Scan.takes_number_iff`: what a number takes; `Scan.takes_number_padded` is its written form.
* `Scan.fraction_lt`, `Scan.takes_fraction_text`: the fraction of a second is less than a second,
  and it is read from its text.
* `Scan.offset_minutes`: an offset is a whole number of minutes.
-/

namespace Flowline

namespace Instant

variable {width n : Nat}

theorem isDigit_of_mem_padded {c : Char} (mem : c ∈ padded width n) : isDigit c = true := by
  rcases List.mem_append.1 mem with zero | digit
  · rw [List.eq_of_mem_replicate zero]
    decide
  · rw [isDigit, digit?_of_isDigit (Nat.isDigit_of_mem_toDigits (by decide) (by decide) digit)]
    rfl

@[simp] theorem digitsValue_padded (width n : Nat) : digitsValue 0 (padded width n) = n := by
  have digits (c) (mem : c ∈ Nat.toDigits 10 n) : c.isDigit = true :=
    Nat.isDigit_of_mem_toDigits (by decide) (by decide) mem
  unfold padded Decimal.digitChars
  rw [digitsValue_append, digitsValue_replicate_zero, digitsValue_eq_ofDigitChars digits]
  exact Nat.ofDigitChars_toDigits (by decide) (by decide)

theorem length_padded (width n : Nat) (positive : 0 < width) (fits : n < 10 ^ width) :
    (padded width n).length = width := by
  have short := (Nat.length_toDigits_le_iff (b := 10) (by decide) positive).2 fits
  unfold padded Decimal.digitChars
  rw [List.length_append, List.length_replicate]
  omega

theorem padded_ne_nil (width n : Nat) : padded width n ≠ [] := fun empty =>
  Nat.toDigits_ne_nil (List.append_eq_nil_iff.1 empty).2

end Instant

namespace Scan

variable {α β : Type} {text mid rest : List Char} {a b : α}

/-! ## Scans made of parts -/

/-- The scan reads a value from the front of a text and leaves the rest. -/
def Takes (s : Scan α) (text : List Char) (a : α) (rest : List Char) : Prop :=
  s.run text = .ok (a, rest)

@[simp] theorem takes_bind_iff {s : Scan α} {f : α → Scan β} {b : β} :
    Takes (s >>= f) text b rest ↔ ∃ a mid, Takes s text a mid ∧ Takes (f a) mid b rest := by
  unfold Takes
  rw [StateT.run_bind]
  constructor
  · intro run
    cases first : s.run text with
    | error e => simp [first, bind, Except.bind] at run
    | ok found => exact ⟨found.1, found.2, rfl, by simpa [first, bind, Except.bind] using run⟩
  · rintro ⟨a, mid, first, second⟩
    simpa [first, bind, Except.bind] using second

@[simp] theorem takes_pure_iff : Takes (pure a) text b rest ↔ a = b ∧ text = rest := by
  have run : (pure a : Scan α).run text = .ok (a, text) := rfl
  simp [Takes, run]

@[simp] theorem takes_map_iff {s : Scan α} {f : α → β} {b : β} :
    Takes (f <$> s) text b rest ↔ ∃ a, Takes s text a rest ∧ f a = b := by
  rw [map_eq_pure_bind, takes_bind_iff]
  simp only [takes_pure_iff]
  constructor
  · rintro ⟨a, mid, first, same, rfl⟩
    exact ⟨a, first, same⟩
  · rintro ⟨a, first, same⟩
    exact ⟨a, rest, first, same, rfl⟩

@[simp] theorem takes_get_iff {found : List Char} :
    Takes get text found rest ↔ text = found ∧ text = rest := by
  simp [Takes, pure, Except.pure]

@[simp] theorem takes_set_iff {new : List Char} {u : PUnit} :
    Takes (set new) text u rest ↔ new = rest := by
  simp [Takes, pure, Except.pure]

@[simp] theorem takes_modify_iff {f : List Char → List Char} {u : PUnit} :
    Takes (modify f) text u rest ↔ f text = rest := by
  simp [Takes, pure, Except.pure]

@[simp] theorem not_takes_throw {e : InstantFault} : ¬ Takes (throw e) text a rest := by
  simp [Takes, throw, throwThe, MonadExceptOf.throw, bind, Except.bind]

@[simp] theorem takes_ite_iff {c : Prop} [Decidable c] {s t : Scan α} :
    Takes (if c then s else t) text a rest ↔
      c ∧ Takes s text a rest ∨ ¬ c ∧ Takes t text a rest := by
  split <;> simp [*]

/-- Whatever the scan reads has the property. -/
def Yields (s : Scan α) (P : α → Prop) : Prop := ∀ text a rest, Takes s text a rest → P a

theorem Yields.bind {s : Scan α} {f : α → Scan β} {Q : α → Prop} {P : β → Prop}
    (first : Yields s Q) (later : ∀ a, Q a → Yields (f a) P) : Yields (s >>= f) P := by
  intro text b rest taken
  obtain ⟨a, mid, read, taken⟩ := takes_bind_iff.1 taken
  exact later a (first text a mid read) mid b rest taken

theorem yields_bind {s : Scan α} {f : α → Scan β} {P : β → Prop}
    (later : ∀ a, Yields (f a) P) : Yields (s >>= f) P :=
  Yields.bind (Q := fun _ => True) (fun _ _ _ _ => trivial) fun a _ => later a

theorem yields_pure {P : α → Prop} (holds : P a) : Yields (pure a) P := by
  intro text b rest taken
  exact (takes_pure_iff.1 taken).1 ▸ holds

/-! ## Numbers -/

theorem takes_number_iff {least most n : Nat} :
    Takes (number least most) text n rest ↔
      let digits := (text.take most).takeWhile isDigit
      least ≤ (String.ofList text).utf8ByteSize ∧ least ≤ digits.length ∧
        digitsValue 0 digits < Nat.pow 2 63 ∧ text.drop digits.length = rest ∧
        digitsValue 0 digits = n := by
  simp [number, and_assoc]

/-- Digits are read as far as they go, or as many as may be read. -/
theorem takes_number_of_digits {most : Nat} {digits : List Char}
    (are_digits : ∀ c ∈ digits, isDigit c = true) (some_digit : digits ≠ [])
    (small : digitsValue 0 digits < Nat.pow 2 63) (fit : digits.length ≤ most)
    (ended : digits.length = most ∨ ∀ c ∈ rest.head?, isDigit c = false) :
    Takes (number 1 most) (digits ++ rest) (digitsValue 0 digits) rest := by
  have taken : ((digits ++ rest).take most).takeWhile isDigit = digits := by
    rw [List.take_append, List.take_of_length_le fit, List.takeWhile_append_of_pos are_digits]
    have stop : (rest.take (most - digits.length)).takeWhile isDigit = [] := by
      rcases ended with full | ended
      · rw [full, Nat.sub_self, List.take_zero, List.takeWhile_nil]
      · cases rest with
        | nil => simp
        | cons c others =>
            cases most - digits.length with
            | zero => rfl
            | succ k => rw [List.take_succ_cons, List.takeWhile_cons, ended c rfl]; rfl
    rw [stop, List.append_nil]
  have text_size : 1 ≤ (String.ofList (digits ++ rest)).utf8ByteSize := by
    refine Nat.pos_of_ne_zero fun empty => some_digit ?_
    have none_left := String.ofList_eq_empty_iff.1 (String.utf8ByteSize_eq_zero_iff.1 empty)
    exact (List.append_eq_nil_iff.1 none_left).1
  refine takes_number_iff.2 ?_
  rw [taken]
  exact ⟨text_size, List.length_pos_iff.2 some_digit, small, List.drop_left, rfl⟩

theorem takes_number_padded {most width n : Nat} (small : n < Nat.pow 2 63)
    (fit : (Instant.padded width n).length ≤ most)
    (ended : (Instant.padded width n).length = most ∨ ∀ c ∈ rest.head?, isDigit c = false) :
    Takes (number 1 most) (Instant.padded width n ++ rest) n rest := by
  have value := Instant.digitsValue_padded width n
  have taken := takes_number_of_digits (fun c => Instant.isDigit_of_mem_padded)
    (Instant.padded_ne_nil width n) (by rw [value]; exact small) fit ended
  rwa [value] at taken

theorem takes_bounded_iff {least most low high n : Nat} :
    Takes (bounded least most low high) text n rest ↔
      Takes (number least most) text n rest ∧ low ≤ n ∧ n ≤ high := by
  simp only [bounded, takes_bind_iff, takes_ite_iff, takes_pure_iff, not_takes_throw, and_false,
    or_false]
  constructor
  · rintro ⟨m, mid, number, bounds, rfl, rfl⟩
    exact ⟨number, bounds⟩
  · rintro ⟨number, bounds⟩
    exact ⟨n, rest, number, bounds, rfl, rfl⟩

/-! ## The fraction of a second -/

/-- Behind a point the first digits are read, each with the weight of its place. -/
theorem takes_fraction_point {n : Nat} :
    Takes fraction ('.' :: text) n rest ↔ ∃ m mid, Takes (number 1 9) text m mid ∧
      mid.dropWhile isDigit = rest ∧ m * Nat.pow 10 (9 - (text.length - mid.length)) = n := by
  simp [fraction, and_assoc]

theorem takes_fraction_of_ne {n : Nat} (no_point : text.head? ≠ some '.') :
    Takes fraction text n rest ↔ 0 = n ∧ text = rest := by
  simp only [fraction, takes_bind_iff, takes_get_iff, and_assoc, exists_eq_left', exists_and_left]
  split
  · exact absurd rfl no_point
  · exact takes_pure_iff

/-- What is read is less than a second. -/
theorem fraction_lt : Yields fraction (· < 10 ^ 9) := by
  intro text n rest taken
  by_cases point : text.head? = some '.'
  · obtain ⟨behind, rfl⟩ : ∃ behind, text = '.' :: behind := List.head?_eq_some_iff.1 point
    obtain ⟨m, mid, number, -, rfl⟩ := takes_fraction_point.1 taken
    obtain ⟨-, -, -, rfl, rfl⟩ := takes_number_iff.1 number
    generalize named : (behind.take 9).takeWhile isDigit = digits at *
    have prefixed : digits.length ≤ (behind.take 9).length := by
      rw [← named]
      exact (List.takeWhile_sublist _).length_le
    rw [List.length_take] at prefixed
    have count : behind.length - (behind.drop digits.length).length = digits.length := by
      rw [List.length_drop]
      omega
    have small := digitsValue_lt digits 0
    have places : digits.length + (9 - digits.length) = 9 := by omega
    rw [count]
    calc
      digitsValue 0 digits * 10 ^ (9 - digits.length)
          < 10 ^ digits.length * 10 ^ (9 - digits.length) :=
        Nat.mul_lt_mul_of_pos_right (by omega) (Nat.pow_pos (by decide))
      _ = 10 ^ 9 := by rw [← Nat.pow_add, places]
  · rw [← ((takes_fraction_of_ne point).1 taken).1]
    decide

/-- So many digits of a fraction, written with leading zeros, have the weight of their places. -/
theorem takes_fraction_padded (width n : Nat) (positive : 0 < width) (at_most : width ≤ 9)
    (fits : n < 10 ^ width) (ended : ∀ c ∈ rest.head?, isDigit c = false) :
    Takes fraction ('.' :: (Instant.padded width n ++ rest)) (n * 10 ^ (9 - width)) rest := by
  have length := Instant.length_padded width n positive fits
  have small : n < Nat.pow 2 63 :=
    Nat.lt_of_lt_of_le fits (Nat.le_trans (Nat.pow_le_pow_right (by decide) at_most) (by decide))
  have left : rest.dropWhile isDigit = rest := by
    cases rest with
    | nil => rfl
    | cons c others => rw [List.dropWhile_cons, ended c rfl]; rfl
  have fit : (Instant.padded width n).length ≤ 9 := Nat.le_trans (Nat.le_of_eq length) at_most
  refine takes_fraction_point.2
    ⟨n, rest, takes_number_padded small fit (Or.inr ended), left, ?_⟩
  rw [List.length_append, length, Nat.add_sub_cancel]
  rfl

theorem takes_fraction_text {nano : Nat} (below : nano < 10 ^ 9)
    (ended : ∀ c ∈ rest.head?, isDigit c = false ∧ c ≠ '.') :
    Takes fraction (Instant.fractionText nano ++ rest) nano rest := by
  have no_digit : ∀ c ∈ rest.head?, isDigit c = false := fun c first => (ended c first).1
  unfold Instant.fractionText
  split
  · next zero =>
      refine (takes_fraction_of_ne ?_).2 ⟨zero.symm, rfl⟩
      exact fun point => (ended '.' point).2 rfl
  · split
    · next millis =>
        have taken := takes_fraction_padded 3 (nano / 1000000) (by decide) (by decide)
          (by omega) no_digit
        have whole : nano / 1000000 * 10 ^ (9 - 3) = nano :=
          Nat.div_mul_cancel (Nat.dvd_of_mod_eq_zero millis)
        rwa [whole] at taken
    · split
      · next micros =>
          have taken := takes_fraction_padded 6 (nano / 1000) (by decide) (by decide)
            (by omega) no_digit
          have whole : nano / 1000 * 10 ^ (9 - 6) = nano :=
            Nat.div_mul_cancel (Nat.dvd_of_mod_eq_zero micros)
          rwa [whole] at taken
      · have taken := takes_fraction_padded 9 nano (by decide) (by decide) below no_digit
        rwa [Nat.sub_self, Nat.pow_zero, Nat.mul_one] at taken

/-! ## The offset -/

/-- An offset is a whole number of minutes. -/
theorem numericOffset_minutes {separator : Scan Unit} {longMinus : Bool} :
    Yields (numericOffset separator longMinus) (· % 60 = 0) := by
  have behindSign (negative : Bool) : Yields (do
      let hours ← twoDigits
      separator
      let minutes ← twoDigits
      if 6 ≤ minutes.1 then throw .outOfRange
      let seconds : Int :=
        ((10 * hours.1 + hours.2) * 3600 + (10 * minutes.1 + minutes.2) * 60 : Nat)
      return if negative then -seconds else seconds) (· % 60 = 0) := by
    refine yields_bind fun hours => yields_bind fun _ => yields_bind fun minutes => ?_
    have whole : (if negative then
        -(((10 * hours.1 + hours.2) * 3600 + (10 * minutes.1 + minutes.2) * 60 : Nat) : Int)
        else ((10 * hours.1 + hours.2) * 3600 + (10 * minutes.1 + minutes.2) * 60 : Nat)) % 60
          = 0 := by
      split <;> omega
    dsimp only
    split
    · exact yields_bind fun _ => yields_pure (P := (· % 60 = 0)) whole
    · exact yields_pure (P := (· % 60 = 0)) whole
  refine yields_bind fun found => ?_
  split
  · exact yields_bind fun _ => yields_bind behindSign
  · exact yields_bind fun _ => yields_bind behindSign
  · split
    · exact yields_bind fun _ => yields_bind behindSign
    · exact yields_bind behindSign
  · exact yields_bind behindSign
  · exact yields_bind behindSign

theorem offset_minutes {separator : Scan Unit} : Yields (offset separator) (· % 60 = 0) := by
  refine yields_bind fun found => ?_
  split
  · exact yields_bind fun _ => yields_pure rfl
  · exact yields_bind fun _ => yields_pure rfl
  · exact numericOffset_minutes

end Scan

end Flowline
