import Flowline.Node.Assertion
import Flowline.Node.Condition
import Flowline.Proofs.Number.Nearest
import Flowline.Proofs.Number.Numeral
import Flowline.Proofs.Text.Trim

/-!
# Comparing whole numbers

Conditions and assertions read what they compare as doubles, so two whole numbers are compared after
they have been rounded to 53 bits (`ComparedAs`).  All comparisons of them are right if the rounded
numbers differ, as those of numbers with 53 bits do, and two different numbers that are rounded to
the same one pass for equal.
-/

namespace Flowline

/-! ## Whole numbers of 64 bits -/

/-- The text writes the number in decimal, perhaps between blanks. -/
def Writes (text : String) (n : Int) : Prop :=
  ∃ front back : List Char, (∀ c ∈ front, isBlank c = true) ∧ (∀ c ∈ back, isBlank c = true) ∧
    text.toList = front ++ ((Json.intText n).toList ++ back)

/-- A number that fits into 64 bits, with a sign or without one. -/
def Fits (n : Int) : Prop := -2 ^ 63 ≤ n ∧ n < 2 ^ 64

instance (n : Int) : Decidable (Fits n) := inferInstanceAs (Decidable (_ ∧ _))

theorem Fits.natAbs_lt {n : Int} (fits : Fits n) : n.natAbs < 2 ^ 64 := by
  obtain ⟨low, high⟩ := fits
  omega

/-- A number is written without blanks. -/
theorem trim_of_writes {text : String} {n : Int} (writes : Writes text n) :
    trim text = Json.intText n := by
  obtain ⟨front, back, front_blank, back_blank, parts⟩ := writes
  have dark : ∀ c ∈ (Json.intText n).toList, isBlank c = false := by
    intro c mem
    have digit (mem : c ∈ Decimal.digitChars n.natAbs) : isBlank c = false :=
      isBlank_of_isDigit ((isDigit_eq c).trans (isDigit_of_mem_digitChars mem))
    rw [Json.intText, String.toList_ofList] at mem
    split at mem
    · rcases List.mem_cons.1 mem with rfl | mem
      · decide
      · exact digit mem
    · exact digit mem
  have untrimmed : trimChars (Json.intText n).toList = (Json.intText n).toList :=
    trimChars_eq_self (fun c first => dark c (List.mem_of_mem_head? first))
      fun c last => dark c (List.mem_of_getLast? last)
  rw [trim, parts, trimChars_between front_blank back_blank, untrimmed, String.ofList_toList]

namespace Real64

/-- The decimal text of a number of at most 64 bits is read as the double that holds it. -/
theorem read?_intText {n : Int} (small : n.natAbs < 2 ^ 64) :
    read? (Json.intText n) = some (finite (Double.ofInt n)) := by
  obtain ⟨x, rounded, -⟩ := Double.exists_ofRatio? (k := 1022) (decide (n < 0)) small rfl
  have held : Double.ofInt n = x := by rw [Double.ofInt, rounded, Option.getD_some]
  have parts : (Json.intText n).toList = if decide (n < 0) then
      '-' :: Decimal.digitChars n.natAbs else Decimal.digitChars n.natAbs := by
    rw [Json.intText, String.toList_ofList]
    simp only [decide_eq_true_eq]
  rw [read?_eq_readUnsigned? parts fun c mem => isDigit_of_mem_digitChars mem,
    readUnsigned?_digitChars, ofDecimal_whole small rounded, held]

end Real64

/-! ## What operators stand for -/

/-- The value is the number, or a text that writes it. -/
inductive Json.Presents : Json → Int → Prop
  | number (n : Int) : Presents (.int n) n
  | text {text : String} {n : Int} (writes : Writes text n) : Presents (.str text) n

/-- The relation of whole numbers that an operator of conditions stands for. -/
inductive CompareOp.Means : CompareOp → (Int → Int → Prop) → Prop
  | eq : Means .eq (· = ·)
  | ne : Means .ne (· ≠ ·)
  | ge : Means .ge (· ≥ ·)
  | le : Means .le (· ≤ ·)

/-- The relation of whole numbers that an operator of assertions stands for. -/
inductive AssertionOp.Means : AssertionOp → (Int → Int → Prop) → Prop
  | equals : Means .equals (· = ·)
  | notEquals : Means .notEquals (· ≠ ·)
  | greaterThan : Means .greaterThan (· > ·)
  | lessThan : Means .lessThan (· < ·)

/-- Conditions and assertions tell of two numbers what holds of two others. -/
structure ComparedAs (a b a' b' : Int) : Prop where
  condition {op : CompareOp} {R : Int → Int → Prop} (means : op.Means R) {left right : String}
    (left_writes : Writes left a) (right_writes : Writes right b) :
    op.holds left right = true ↔ R a' b'
  assertion {op : AssertionOp} {R : Int → Int → Prop} (means : op.Means R) {actual expected : Json}
    (actual_presents : actual.Presents a) (expected_presents : expected.Presents b) :
    Assertion.complaint? op (some actual) expected = none ↔ R a' b'

section

variable {a b : Int}

theorem compareOperands_eq (fits_a : Fits a) (fits_b : Fits b) :
    compareOperands (Json.intText a) (Json.intText b) =
      if nearest a = nearest b then some .eq
      else if nearest a < nearest b then some .lt
      else some .gt := by
  have small_a := fits_a.natAbs_lt
  have small_b := fits_b.natAbs_lt
  unfold compareOperands
  rw [Real64.read?_intText small_a, Real64.read?_intText small_b]
  simp only [Real64.eq_ofInt small_a small_b, Real64.lt_ofInt small_a small_b,
    Real64.lt_ofInt small_b small_a, decide_eq_true_eq]
  split_ifs <;> first | rfl | omega

theorem holds_iff (fits_a : Fits a) (fits_b : Fits b) {op : CompareOp} {R : Int → Int → Prop}
    (means : op.Means R) {left right : String} (left_writes : Writes left a)
    (right_writes : Writes right b) :
    op.holds left right = true ↔ R (nearest a) (nearest b) := by
  unfold CompareOp.holds
  rw [trim_of_writes left_writes, trim_of_writes right_writes]
  cases means with
  | eq | ne | ge | le =>
      simp only [compareOperands_eq fits_a fits_b]
      split_ifs <;> simp <;> omega

theorem Json.Presents.number? (fits : Fits a) {value : Json} (presents : value.Presents a) :
    value.number? = some (.finite (.ofInt a)) := by
  cases presents with
  | number => rfl
  | text writes =>
      rw [Json.number?, trim_of_writes writes, Real64.read?_intText fits.natAbs_lt]

/-- The same number and the same text denote the same number. -/
theorem Json.Presents.number?_congr {actual expected : Json} (presents : actual.Presents a)
    (presents' : expected.Presents b) (same : actual.same expected = true) :
    actual.number? = expected.number? := by
  cases presents with
  | number =>
      cases presents' with
      | number => rw [beq_iff_eq.1 same]
      | text => cases same
  | text =>
      cases presents' with
      | number => cases same
      | text => rw [beq_iff_eq.1 same]

theorem Json.Presents.looselySame_eq (fits_a : Fits a) (fits_b : Fits b) {actual expected : Json}
    (presents : actual.Presents a) (presents' : expected.Presents b) :
    actual.looselySame expected = decide (nearest a = nearest b) := by
  have compared := Real64.eq_ofInt fits_a.natAbs_lt fits_b.natAbs_lt
  unfold Json.looselySame
  split
  · next same =>
      have numbers := presents.number?_congr presents' same
      rw [presents.number? fits_a, presents'.number? fits_b, Option.some.injEq] at numbers
      rw [← compared, numbers, Real64.eq_ofInt fits_b.natAbs_lt fits_b.natAbs_lt]
      exact (decide_eq_true rfl).symm
  · rw [presents.number? fits_a, presents'.number? fits_b]
    exact compared

theorem complaint?_iff (fits_a : Fits a) (fits_b : Fits b) {op : AssertionOp}
    {R : Int → Int → Prop} (means : op.Means R) {actual expected : Json}
    (presents : actual.Presents a) (presents' : expected.Presents b) :
    Assertion.complaint? op (some actual) expected = none ↔ R (nearest a) (nearest b) := by
  have number := presents.number? fits_a
  have number' := presents'.number? fits_b
  have there : Assertion.complaint? op (some actual) expected = none ↔
      Assertion.holds op actual expected = true := by
    cases presents <;> simp [Assertion.complaint?]
  rw [there]
  cases means with
  | equals =>
      rw [Assertion.holds, presents.looselySame_eq fits_a fits_b presents', decide_eq_true_iff]
  | notEquals =>
      simp [Assertion.holds, presents.looselySame_eq fits_a fits_b presents']
  | greaterThan =>
      simp [Assertion.holds, number, number', Real64.lt_ofInt fits_b.natAbs_lt fits_a.natAbs_lt]
  | lessThan =>
      simp [Assertion.holds, number, number', Real64.lt_ofInt fits_a.natAbs_lt fits_b.natAbs_lt]

end

/-! ## All comparisons -/

theorem comparedAs_nearest {a b : Int} (fits_a : Fits a) (fits_b : Fits b) :
    ComparedAs a b (nearest a) (nearest b) where
  condition := holds_iff fits_a fits_b
  assertion := complaint?_iff fits_a fits_b

theorem writes_intText (n : Int) : Writes (Json.intText n) n :=
  ⟨[], [], nofun, nofun, (List.append_nil _).symm⟩

variable {a b a' b' c d : Int}

/-- The operators ask for nothing but the order of the numbers. -/
theorem ComparedAs.of_order (compared : ComparedAs a b c d) (below : c ≤ d ↔ a' ≤ b')
    (above : d ≤ c ↔ b' ≤ a') : ComparedAs a b a' b' where
  condition means _ _ left_writes right_writes := by
    rw [compared.condition means left_writes right_writes]
    cases means <;> dsimp only <;> omega
  assertion means _ _ presents presents' := by
    rw [compared.assertion means presents presents']
    cases means <;> dsimp only <;> omega

/-- If two numbers are told apart after rounding, their order is right. -/
theorem nearest_le_iff (apart : nearest a = nearest b → a = b) : nearest a ≤ nearest b ↔ a ≤ b := by
  constructor
  · intro le
    by_contra greater
    have back : nearest b ≤ nearest a := nearest_mono (by omega)
    have := apart (le_antisymm le back)
    omega
  · exact nearest_mono

/-- **Whole numbers of 64 bits are compared as the nearest ones with 53 bits.**  So the order that
comes out is never the wrong way round, all comparisons of two numbers are right unless they differ
and are rounded to the same number, and right for all numbers up to 2^53. -/
theorem compared_by_nearest (fits_a : Fits a) (fits_b : Fits b) :
    ComparedAs a b (nearest a) (nearest b) ∧ Rounds a (nearest a) ∧ Rounds b (nearest b) ∧
      (a ≤ b → nearest a ≤ nearest b) ∧ (b ≤ a → nearest b ≤ nearest a) ∧
      (ComparedAs a b a b ↔ (nearest a = nearest b → a = b)) ∧
      (a.natAbs ≤ 2 ^ 53 → b.natAbs ≤ 2 ^ 53 → ComparedAs a b a b) := by
  have compared := comparedAs_nearest fits_a fits_b
  have exact_iff : ComparedAs a b a b ↔ (nearest a = nearest b → a = b) := by
    constructor
    · intro right same
      have holds := (compared.condition .eq (writes_intText a) (writes_intText b)).2 same
      exact (right.condition .eq (writes_intText a) (writes_intText b)).1 holds
    · intro apart
      exact compared.of_order (nearest_le_iff apart)
        (nearest_le_iff fun same => (apart same.symm).symm)
  refine ⟨compared, rounds_nearest a, rounds_nearest b, nearest_mono, nearest_mono, exact_iff, ?_⟩
  intro small_a small_b
  refine exact_iff.2 fun same => ?_
  rwa [nearest_eq_self small_a, nearest_eq_self small_b] at same

/-- The odd numbers next to 2^53 + 2 are told apart. -/
theorem compared_by_nearest_odd :
    Fits 9007199254740993 ∧ Fits 9007199254740995 ∧
      ComparedAs 9007199254740993 9007199254740995 9007199254740993 9007199254740995 := by
  have fits : Fits 9007199254740993 := by decide
  have fits' : Fits 9007199254740995 := by decide
  obtain ⟨-, -, -, -, -, exact_iff, -⟩ := compared_by_nearest fits fits'
  have apart : nearest 9007199254740993 ≠ nearest 9007199254740995 := by decide +kernel
  exact ⟨fits, fits', exact_iff.2 fun same => absurd same apart⟩

/-- The first odd number behind 2^53 passes for 2^53, in a condition and in an assertion. -/
theorem compared_alike_behind_two_pow_53 :
    CompareOp.eq.holds "9007199254740993" "9007199254740992" = true ∧
      Assertion.complaint? .equals (some (.int 9007199254740993)) (.int 9007199254740992) = none ∧
      ¬ ∀ a b, Fits a → Fits b → ComparedAs a b a b := by
  have conditions : CompareOp.eq.holds "9007199254740993" "9007199254740992" = true := by
    decide +kernel
  refine ⟨conditions, by decide +kernel, fun right => ?_⟩
  have compared := right 9007199254740993 9007199254740992 (by decide) (by decide)
  have equal := (compared.condition .eq (writes_intText _) (writes_intText _)).1 conditions
  exact absurd equal (by decide)

end Flowline
