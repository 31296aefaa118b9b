import Flowline.Number.Numeral
import Flowline.Text.Blank
import Mathlib.Algebra.Group.Nat.Defs
import Mathlib.Data.List.TakeWhile
import Mathlib.Data.Nat.Digits.Defs

/-!
# What numerals denote

Digits denote a number as they do in the library (`digitsValue_eq_ofDigitChars`), and what is read
as a bounded whole number are its digits behind an optional plus sign (`readNat?_eq_some_iff`).
Digits with or without a minus sign are read as the double that their number is rounded to
(`Real64.read?_eq_readUnsigned?`, `Real64.ofDecimal_whole`).
-/

namespace Flowline

/-! ## Digits -/

theorem digit?_of_isDigit {c : Char} (digit : c.isDigit = true) :
    digit? c = some (c.toNat - '0'.toNat) :=
  if_pos (Char.isDigit_iff_toNat.1 digit)

theorem isDigit_eq (c : Char) : isDigit c = c.isDigit := by
  rw [Bool.eq_iff_iff, Char.isDigit_iff_toNat, isDigit, digit?]
  split
  · next bounds => exact iff_of_true rfl bounds
  · next outside => exact iff_of_false Bool.noConfusion outside

theorem isBlank_of_isDigit {c : Char} (digit : isDigit c = true) : isBlank c = false := by
  rw [isDigit_eq, Char.isDigit_iff_toNat] at digit
  obtain ⟨low, high⟩ : 48 ≤ c.toNat ∧ c.toNat ≤ 57 := digit
  simp [isBlank]
  omega

theorem digit?_lt {c : Char} {n : Nat} (digit : digit? c = some n) : n < 10 := by
  unfold digit? at digit
  split at digit
  · next bounds =>
      have upper : c.toNat ≤ '9'.toNat := bounds.2
      rw [← Option.some.inj digit]
      exact Nat.lt_of_le_of_lt (Nat.sub_le_sub_right upper _) (by decide)
  · cases digit

theorem digitsValue_cons (start : Nat) (c : Char) (cs : List Char) :
    digitsValue start (c :: cs) = digitsValue (10 * start + (digit? c).getD 0) cs := rfl

theorem digitsValue_append (start : Nat) (first second : List Char) :
    digitsValue start (first ++ second) = digitsValue (digitsValue start first) second :=
  List.foldl_append

/-- So many digits denote a number below that power of ten. -/
theorem digitsValue_lt (cs : List Char) (start : Nat) :
    digitsValue start cs < (start + 1) * 10 ^ cs.length := by
  induction cs generalizing start with
  | nil => simp [digitsValue]
  | cons c rest ih =>
      have digit : (digit? c).getD 0 < 10 := by
        cases value : digit? c with
        | none => decide
        | some n => exact digit?_lt value
      have room : 10 * start + (digit? c).getD 0 + 1 ≤ (start + 1) * 10 := by omega
      calc
        digitsValue start (c :: rest)
            < (10 * start + (digit? c).getD 0 + 1) * 10 ^ rest.length := ih _
        _ ≤ (start + 1) * 10 * 10 ^ rest.length := Nat.mul_le_mul_right _ room
        _ = (start + 1) * 10 ^ (c :: rest).length := by
          rw [List.length_cons, Nat.pow_succ', Nat.mul_assoc]

theorem digitsValue_replicate_zero (count : Nat) :
    digitsValue 0 (List.replicate count '0') = 0 := by
  induction count with
  | zero => rfl
  | succ count ih => exact ih

theorem digitsValue_eq_ofDigitChars {cs : List Char} (digits : ∀ c ∈ cs, c.isDigit = true)
    (start : Nat) : digitsValue start cs = Nat.ofDigitChars 10 cs start := by
  induction cs generalizing start with
  | nil => rfl
  | cons c rest ih =>
      rw [digitsValue_cons, digit?_of_isDigit (digits c List.mem_cons_self),
        ih fun d mem => digits d (List.mem_cons_of_mem c mem)]
      rfl

theorem isDigit_of_mem_digitChars {n : Nat} {c : Char} (mem : c ∈ Decimal.digitChars n) :
    c.isDigit = true :=
  Nat.isDigit_of_mem_toDigits (by decide) (by decide) mem

/-- The decimal digits of a number denote it. -/
theorem digitsValue_digitChars (n : Nat) : digitsValue 0 (Decimal.digitChars n) = n := by
  rw [digitsValue_eq_ofDigitChars fun c mem => isDigit_of_mem_digitChars mem]
  exact Nat.ofDigitChars_toDigits (by decide) (by decide)

/-! ## Bounded whole numbers -/

/-- A whole number up to a limit as it is written: some digits, behind a plus sign or not. -/
def Numeral (limit : Nat) (text : List Char) (n : Nat) : Prop :=
  ∃ digits, (text = digits ∨ text = '+' :: digits) ∧ digits ≠ [] ∧
    (∀ c ∈ digits, c.isDigit = true) ∧ Nat.ofDigitChars 10 digits 0 = n ∧ n ≤ limit

variable {limit n : Nat} {text : List Char}

theorem Numeral.le (numeral : Numeral limit text n) : n ≤ limit := by
  obtain ⟨_, -, -, -, -, small⟩ := numeral
  exact small

/-- A numeral begins with a digit or a plus sign. -/
theorem Numeral.head {c : Char} {rest : List Char} (numeral : Numeral limit (c :: rest) n) :
    c = '+' ∨ c.isDigit = true := by
  obtain ⟨digits, rfl | same, -, all_digits, -⟩ := numeral
  · exact .inr (all_digits c List.mem_cons_self)
  · exact .inl (List.cons.inj same).1

/-- What the digits of a bounded whole number are. -/
theorem digitsValue_eq_some_iff {digits : List Char} :
    (if digits ≠ [] ∧ digits.all isDigit then
        if digitsValue 0 digits ≤ limit then some (digitsValue 0 digits) else none
      else none) = some n ↔
      digits ≠ [] ∧ (∀ c ∈ digits, c.isDigit = true) ∧ Nat.ofDigitChars 10 digits 0 = n ∧
        n ≤ limit := by
  have all_iff : digits.all isDigit = true ↔ ∀ c ∈ digits, c.isDigit = true := by
    simp only [List.all_eq_true, isDigit_eq]
  constructor
  · intro found
    split at found
    · next both =>
        have all_digits := all_iff.1 both.2
        split at found
        · next small =>
            cases found
            exact ⟨both.1, all_digits, (digitsValue_eq_ofDigitChars all_digits 0).symm, small⟩
        · cases found
    · cases found
  · rintro ⟨some_digit, all_digits, rfl, small⟩
    rw [if_pos ⟨some_digit, all_iff.2 all_digits⟩, digitsValue_eq_ofDigitChars all_digits,
      if_pos small]

/-- What is read as a whole number are its numerals. -/
theorem readNat?_eq_some_iff :
    readNat? limit (String.ofList text) = some n ↔ Numeral limit text n := by
  unfold readNat?
  rw [String.toList_ofList]
  dsimp only
  split
  · next rest =>
      refine digitsValue_eq_some_iff.trans ⟨fun numeral => ⟨rest, .inr rfl, numeral⟩, ?_⟩
      rintro ⟨digits, rfl | same, numeral⟩
      · exact absurd (numeral.2.1 '+' List.mem_cons_self) (by decide)
      · rw [(List.cons.inj same).2]
        exact numeral
  · next unsigned =>
      refine digitsValue_eq_some_iff.trans ⟨fun numeral => ⟨text, .inl rfl, numeral⟩, ?_⟩
      rintro ⟨digits, rfl | same, numeral⟩
      · exact numeral
      · exact absurd same (unsigned digits)

/-- The decimal digits of a number are one of its numerals. -/
theorem numeral_digitChars (small : n ≤ limit) : Numeral limit (Decimal.digitChars n) n :=
  ⟨Decimal.digitChars n, .inl rfl, Nat.toDigits_ne_nil,
    fun _ mem => isDigit_of_mem_digitChars mem,
    Nat.ofDigitChars_toDigits (by decide) (by decide), small⟩

/-! ## Decimal numbers -/

namespace Real64

theorem ofDecimal_whole {negative : Bool} {d : Nat} {x : Double} (small : d < 2 ^ 64)
    (rounded : Double.ofRatio? negative d 1 = some x) : ofDecimal negative d 0 = finite x := by
  have width : Decimal.width d ≤ 20 := Nat.toDigits_length 10 d 20 (by decide) (by omega)
  have written : Double.ofRatio? negative (d * Nat.pow 10 (Int.toNat 0))
      (Nat.pow 10 (Int.toNat (-0))) = some x := by
    rw [← rounded]
    congr 1
    exact Nat.mul_one d
  unfold ofDecimal
  dsimp only
  by_cases zero : d = 0
  · subst zero
    cases rounded
    rfl
  · rw [if_neg (by omega), if_neg (by omega), written]

/-- Digits are read as the number that they denote. -/
theorem readUnsigned?_digitChars (negative : Bool) (d : Nat) :
    readUnsigned? negative (Decimal.digitChars d) = some (ofDecimal negative d 0) := by
  have digits (c) (mem : c ∈ Decimal.digitChars d) : isDigit c = true :=
    (isDigit_eq c).trans (isDigit_of_mem_digitChars mem)
  have all : (Decimal.digitChars d).takeWhile isDigit = Decimal.digitChars d :=
    List.takeWhile_eq_self_iff.2 digits
  have none_left : (Decimal.digitChars d).dropWhile isDigit = [] :=
    List.dropWhile_eq_nil_iff.2 digits
  have some_digit : Decimal.digitChars d ≠ [] := Nat.toDigits_ne_nil
  unfold readUnsigned? spanDigits
  rw [all, none_left]
  dsimp only
  rw [if_neg fun both => some_digit both.1, List.append_nil, digitsValue_digitChars]
  rfl

/-- Digits are none of the words for what is not finite: there is an `n` in each of them. -/
theorem lower_ne_word {body : List Char} (digits : ∀ c ∈ body, c.isDigit = true) {word : String}
    (letter : 'n' ∈ word.toList) : String.ofList (body.map lowerAscii) ≠ word := by
  rintro rfl
  rw [String.toList_ofList] at letter
  obtain ⟨c, mem, lower⟩ := List.mem_map.1 letter
  have digit := Char.isDigit_iff_toNat.1 (digits c mem)
  have same : lowerAscii c = c := if_neg fun capital => by
    have above : 'A'.toNat ≤ c.toNat := capital.1
    have below : c.toNat ≤ '9'.toNat := digit.2
    exact absurd (above.trans below) (by decide)
  rw [same] at lower
  subst lower
  exact absurd (digits _ mem) (by decide)

/-- Digits are read as an unsigned number, after the sign. -/
theorem read?_eq_readUnsigned? {text : String} {negative : Bool} {body : List Char}
    (parts : text.toList = if negative then '-' :: body else body)
    (digits : ∀ c ∈ body, c.isDigit = true) : read? text = readUnsigned? negative body := by
  unfold read?
  rw [parts]
  split
  next sign rest same =>
    have signed : sign = negative ∧ rest = body := by
      cases negative with
      | true =>
          cases same
          exact ⟨rfl, rfl⟩
      | false =>
          rw [if_neg Bool.false_ne_true] at same
          split at same
          · exact absurd (digits '-' List.mem_cons_self) (by decide)
          · exact absurd (digits '+' List.mem_cons_self) (by decide)
          · cases same
            exact ⟨rfl, rfl⟩
    obtain ⟨rfl, rfl⟩ := signed
    dsimp only
    rw [if_neg (not_or.2 ⟨lower_ne_word digits (by decide), lower_ne_word digits (by decide)⟩),
      if_neg (lower_ne_word digits (by decide))]

end Real64

end Flowline
