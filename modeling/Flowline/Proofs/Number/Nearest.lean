import Flowline.Number.Double
import Mathlib.Algebra.Group.Int.Defs
import Mathlib.Algebra.Group.Nat.Defs
import Mathlib.Data.Nat.Log

/-!
# Whole numbers as doubles

A whole number of at most 64 bits is held as the nearest number with 53 significant bits.  `nearest`
is this number: it is the number itself if that is small enough (`nearest_eq_self`), nothing with 53
bits is closer (`rounds_nearest`), and rounding never turns the order of two numbers round
(`nearest_mono`).  So doubles that were whole numbers compare as the rounded numbers do
(`Real64.eq_ofInt`, `Real64.lt_ofInt`).
-/

namespace Flowline

/-! ## Rounding a quotient -/

section

variable {a b d k : Nat}

/-- What divides evenly is not rounded. -/
theorem roundHalfEven_mul (k : Nat) (positive : 0 < d) : roundHalfEven (k * d) d = k := by
  unfold roundHalfEven
  rw [Nat.mul_div_cancel _ positive, Nat.mul_mod_left]
  exact if_pos positive

theorem roundHalfEven_mono (le : a ≤ b) : roundHalfEven a d ≤ roundHalfEven b d := by
  have quotients : a / d ≤ b / d := Nat.div_le_div_right le
  have parts_a := Nat.div_add_mod a d
  have parts_b := Nat.div_add_mod b d
  unfold roundHalfEven
  dsimp only
  rcases Nat.lt_or_eq_of_le quotients with less | same
  · split_ifs <;> omega
  · rw [same] at parts_a ⊢
    have remainders : a % d ≤ b % d := by omega
    split_ifs <;> omega

/-- A multiple below the number stays below the rounded one, -/
theorem mul_le_roundHalfEven (positive : 0 < d) (le : k * d ≤ a) : k ≤ roundHalfEven a d :=
  (roundHalfEven_mul k positive).symm.trans_le (roundHalfEven_mono le)

/-- and one above the number above it. -/
theorem roundHalfEven_le_mul (positive : 0 < d) (le : a ≤ k * d) : roundHalfEven a d ≤ k :=
  (roundHalfEven_mono le).trans_eq (roundHalfEven_mul k positive)

/-- Rounding goes at most half of the way from one multiple to the next. -/
theorem roundHalfEven_near (positive : 0 < d) :
    2 * a ≤ 2 * (roundHalfEven a d * d) + d ∧ 2 * (roundHalfEven a d * d) ≤ 2 * a + d := by
  have parts := Nat.div_add_mod a d
  have remainder : a % d < d := Nat.mod_lt a positive
  have next : (a / d + 1) * d = a / d * d + d := Nat.succ_mul _ _
  rw [Nat.mul_comm] at parts
  unfold roundHalfEven
  dsimp only
  split_ifs <;> omega

end

/-! ## Whole numbers of 53 bits -/

/-- The last place of a number that is held with 53 bits. -/
def lastPlace (n : Nat) : Nat := 2 ^ (n.log2 - 52)

/-- A natural number rounded to 53 bits. -/
def roundWhole (n : Nat) : Nat := roundHalfEven n (lastPlace n) * lastPlace n

/-- The number with 53 significant bits nearest to a whole number, of two the even one. -/
def nearest (n : Int) : Int := if n < 0 then -(roundWhole n.natAbs : Int) else roundWhole n.natAbs

variable {m n : Nat}

theorem lastPlace_pos (n : Nat) : 0 < lastPlace n := Nat.two_pow_pos _

theorem roundWhole_eq_self (whole : lastPlace n ∣ n) : roundWhole n = n := by
  obtain ⟨k, parts⟩ := whole
  rw [Nat.mul_comm] at parts
  unfold roundWhole
  calc
    roundHalfEven n (lastPlace n) * lastPlace n
        = roundHalfEven (k * lastPlace n) (lastPlace n) * lastPlace n := by rw [← parts]
    _ = k * lastPlace n := by rw [roundHalfEven_mul k (lastPlace_pos n)]
    _ = n := parts.symm

theorem roundWhole_of_le (small : n ≤ 2 ^ 53) : roundWhole n = n := by
  apply roundWhole_eq_self
  rcases Nat.lt_or_eq_of_le small with less | rfl
  · have few : n.log2 < 53 := by
      by_cases zero : n = 0
      · subst zero
        decide
      · exact (Nat.log2_lt zero).2 less
    have one : lastPlace n = 1 := by rw [lastPlace, Nat.sub_eq_zero_of_le (by omega), Nat.pow_zero]
    rw [one]
    exact Nat.one_dvd n
  · decide

/-- The power of two above which a number lies is a multiple of its last place. -/
theorem two_pow_log2_eq (n : Nat) : 2 ^ min n.log2 52 * lastPlace n = 2 ^ n.log2 := by
  rw [lastPlace, ← Nat.pow_add]
  congr 1
  omega

theorem two_pow_log2_le_roundWhole (positive : n ≠ 0) : 2 ^ n.log2 ≤ roundWhole n := by
  rw [← two_pow_log2_eq]
  refine Nat.mul_le_mul_right _ (mul_le_roundHalfEven (lastPlace_pos n) ?_)
  rw [two_pow_log2_eq]
  exact Nat.log2_self_le positive

theorem roundWhole_le_two_pow_log2 (n : Nat) : roundWhole n ≤ 2 ^ (n.log2 + 1) := by
  have double : 2 * 2 ^ min n.log2 52 * lastPlace n = 2 ^ (n.log2 + 1) := by
    rw [Nat.mul_assoc, two_pow_log2_eq, Nat.pow_succ']
  rw [← double]
  refine Nat.mul_le_mul_right _ (roundHalfEven_le_mul (lastPlace_pos n) ?_)
  rw [double]
  exact Nat.lt_log2_self.le

theorem roundWhole_mono (le : m ≤ n) : roundWhole m ≤ roundWhole n := by
  by_cases zero : m = 0
  · subst zero
    exact Nat.zero_le _
  have logs : m.log2 ≤ n.log2 := (Nat.le_log2 (by omega)).2 ((Nat.log2_self_le zero).trans le)
  rcases Nat.lt_or_eq_of_le logs with less | same
  · calc
      roundWhole m ≤ 2 ^ (m.log2 + 1) := roundWhole_le_two_pow_log2 m
      _ ≤ 2 ^ n.log2 := Nat.pow_le_pow_right (by decide) less
      _ ≤ roundWhole n := two_pow_log2_le_roundWhole (by omega)
  · have places : lastPlace m = lastPlace n := by rw [lastPlace, lastPlace, same]
    rw [roundWhole, roundWhole, places]
    exact Nat.mul_le_mul_right _ (roundHalfEven_mono le)

/-- Of the multiples of its last place, none is closer to a number than the rounded number. -/
theorem roundWhole_closest_mul (n k : Nat) :
    ((n : Int) - roundWhole n).natAbs ≤ ((n : Int) - (k * lastPlace n : Nat)).natAbs := by
  obtain ⟨above, below⟩ := roundHalfEven_near (a := n) (lastPlace_pos n)
  change 2 * n ≤ 2 * roundWhole n + _ at above
  change 2 * roundWhole n ≤ _ at below
  rcases Nat.lt_trichotomy k (roundHalfEven n (lastPlace n)) with less | same | greater
  · have apart : (k + 1) * lastPlace n ≤ roundWhole n := Nat.mul_le_mul_right _ less
    rw [Nat.succ_mul] at apart
    omega
  · rw [same]
    exact le_rfl
  · have apart : roundWhole n + lastPlace n ≤ k * lastPlace n := by
      rw [roundWhole, ← Nat.succ_mul]
      exact Nat.mul_le_mul_right _ greater
    omega

/-- Of the numbers with 53 bits, none is closer to a number than the rounded number. -/
theorem roundWhole_closest (n : Nat) {m : Nat} (short : m < 2 ^ 53) (e : Nat) :
    ((n : Int) - roundWhole n).natAbs ≤ ((n : Int) - (m * 2 ^ e : Nat)).natAbs := by
  rcases Nat.lt_or_ge e (n.log2 - 52) with fine | coarse
  · -- Such a number lies below the power of two below `n`.
    have positive : n ≠ 0 := by
      rintro rfl
      exact absurd fine (by simp)
    have closest := roundWhole_closest_mul n (2 ^ min n.log2 52)
    rw [two_pow_log2_eq] at closest
    have low : 2 ^ n.log2 ≤ n := Nat.log2_self_le positive
    have lower : m * 2 ^ e ≤ 2 ^ n.log2 := by
      calc
        m * 2 ^ e ≤ 2 ^ 53 * 2 ^ e := Nat.mul_le_mul_right _ short.le
        _ = 2 ^ (53 + e) := (Nat.pow_add 2 53 e).symm
        _ ≤ 2 ^ n.log2 := Nat.pow_le_pow_right (by decide) (by omega)
    omega
  · have multiple : m * 2 ^ e = m * 2 ^ (e - (n.log2 - 52)) * lastPlace n := by
      rw [lastPlace, Nat.mul_assoc, ← Nat.pow_add, Nat.sub_add_cancel coarse]
    rw [multiple]
    exact roundWhole_closest_mul n _

/-- The rounded number has 53 bits. -/
theorem exists_roundWhole_eq (n : Nat) : ∃ m e, m < 2 ^ 53 ∧ roundWhole n = m * 2 ^ e := by
  have most : roundHalfEven n (lastPlace n) ≤ 2 ^ 53 := by
    refine roundHalfEven_le_mul (lastPlace_pos n) (Nat.lt_log2_self.le.trans ?_)
    rw [lastPlace, ← Nat.pow_add]
    exact Nat.pow_le_pow_right (by decide) (by omega)
  rcases Nat.lt_or_eq_of_le most with less | same
  · exact ⟨_, _, less, rfl⟩
  · refine ⟨2 ^ 52, n.log2 - 52 + 1, by decide, ?_⟩
    rw [roundWhole, same, lastPlace, ← Nat.pow_add, ← Nat.pow_add]
    congr 1
    omega

/-! ## The sign -/

/-- A whole number with at most 53 significant bits. -/
def Short (n : Int) : Prop := ∃ (m : Int) (e : Nat), m.natAbs < 2 ^ 53 ∧ n = m * 2 ^ e

theorem nearest_mono {a b : Int} (le : a ≤ b) : nearest a ≤ nearest b := by
  unfold nearest
  split
  · next below =>
      split
      · next below' =>
          have := roundWhole_mono (m := b.natAbs) (n := a.natAbs) (by omega)
          omega
      · omega
  · next above =>
      rw [if_neg (by omega)]
      exact Int.ofNat_le.2 (roundWhole_mono (by omega))

theorem nearest_eq_self {a : Int} (small : a.natAbs ≤ 2 ^ 53) : nearest a = a := by
  rw [nearest, roundWhole_of_le small]
  split <;> omega

/-- The second number is the first one rounded: it has 53 bits, and no number that has is closer. -/
structure Rounds (a r : Int) : Prop where
  short : Short r
  closest {c : Int} (short : Short c) : (a - r).natAbs ≤ (a - c).natAbs

theorem short_nearest (a : Int) : Short (nearest a) := by
  obtain ⟨m, e, short, parts⟩ := exists_roundWhole_eq a.natAbs
  unfold nearest
  rw [parts]
  split
  · exact ⟨-m, e, by omega, by push_cast; rw [Int.neg_mul]⟩
  · exact ⟨m, e, by omega, by push_cast; rfl⟩

theorem rounds_nearest (a : Int) : Rounds a (nearest a) := by
  refine ⟨short_nearest a, fun {c} short => ?_⟩
  obtain ⟨m, e, bits, rfl⟩ := short
  have closest := roundWhole_closest a.natAbs bits e
  have size : (m * 2 ^ e).natAbs = m.natAbs * 2 ^ e := by
    rw [Int.natAbs_mul, Int.natAbs_pow]
    rfl
  rw [← size] at closest
  unfold nearest
  split <;> omega

/-! ## Doubles -/

namespace Double

theorem floorLog2_one (positive : n ≠ 0) : floorLog2 n 1 = n.log2 := by
  have exponent : (n.log2 : Int) - (Nat.log2 1 : Nat) = n.log2 := Int.sub_zero _
  have enough : ¬ n * Nat.pow 2 0 < 1 * Nat.pow 2 n.log2 := by
    rw [Nat.one_mul]
    exact Nat.not_lt.2 ((Nat.log2_self_le positive).trans_eq (Nat.mul_one n).symm)
  unfold floorLog2
  rw [exponent]
  dsimp only
  rw [Int.toNat_natCast, Int.toNat_neg_natCast]
  exact if_neg enough

/-- The mantissa of a whole number before a carry into the next power of two. -/
def wholeMantissa (n : Nat) : Nat := roundHalfEven (n * 2 ^ (52 - n.log2)) (lastPlace n)

theorem two_pow_le_wholeMantissa (positive : n ≠ 0) : 2 ^ 52 ≤ wholeMantissa n := by
  refine mul_le_roundHalfEven (lastPlace_pos n) ?_
  calc
    2 ^ 52 * lastPlace n = 2 ^ n.log2 * 2 ^ (52 - n.log2) := by
      rw [lastPlace, ← Nat.pow_add, ← Nat.pow_add]
      congr 1
      omega
    _ ≤ n * 2 ^ (52 - n.log2) := Nat.mul_le_mul_right _ (Nat.log2_self_le positive)

theorem wholeMantissa_le (n : Nat) : wholeMantissa n ≤ 2 ^ 53 := by
  refine roundHalfEven_le_mul (lastPlace_pos n) ?_
  calc
    n * 2 ^ (52 - n.log2) ≤ 2 ^ (n.log2 + 1) * 2 ^ (52 - n.log2) :=
      Nat.mul_le_mul_right _ Nat.lt_log2_self.le
    _ = 2 ^ 53 * lastPlace n := by
      rw [lastPlace, ← Nat.pow_add, ← Nat.pow_add]
      congr 1
      omega

/-- The mantissa stands for the rounded number. -/
theorem wholeMantissa_mul (n k : Nat) :
    wholeMantissa n * 2 ^ (n.log2 + k) = roundWhole n * 2 ^ (52 + k) := by
  rcases Nat.le_total n.log2 52 with short | long
  · have place : lastPlace n = 1 := by rw [lastPlace, Nat.sub_eq_zero_of_le short, Nat.pow_zero]
    have rounded : roundWhole n = n := roundWhole_eq_self (place ▸ Nat.one_dvd n)
    have mantissa : wholeMantissa n = n * 2 ^ (52 - n.log2) := by
      have := roundHalfEven_mul (n * 2 ^ (52 - n.log2)) Nat.one_pos
      rw [Nat.mul_one] at this
      rw [wholeMantissa, place, this]
    have places : 52 - n.log2 + (n.log2 + k) = 52 + k := by omega
    rw [rounded, mantissa, Nat.mul_assoc, ← Nat.pow_add, places]
  · have mantissa : wholeMantissa n = roundHalfEven n (lastPlace n) := by
      rw [wholeMantissa, Nat.sub_eq_zero_of_le long, Nat.pow_zero, Nat.mul_one]
    have places : n.log2 - 52 + (52 + k) = n.log2 + k := by omega
    rw [mantissa, roundWhole, Nat.mul_assoc, lastPlace, ← Nat.pow_add, places]

variable {k : Nat}

/-- A number of at most 64 bits is rounded to a double. -/
theorem exists_ofRatio? (negative : Bool) (small : n < 2 ^ 64) (least : 52 + k = 1074) :
    ∃ x, ofRatio? negative n 1 = some x ∧ x.negative = negative ∧
      x.mantissa * 2 ^ (x.exponent + 1074).toNat = roundWhole n * 2 ^ (52 + k) := by
  by_cases zero : n = 0
  · subst zero
    refine ⟨Double.zero negative, rfl, rfl, ?_⟩
    rw [roundWhole_of_le (Nat.zero_le _), Nat.zero_mul]
    exact Nat.zero_mul _
  have few : n.log2 < 64 := (Nat.log2_lt zero).2 small
  have full := two_pow_le_wholeMantissa zero
  have exponent : max (floorLog2 n 1 - 52) (-1074) = (n.log2 : Int) - 52 := by
    rw [floorLog2_one zero]
    omega
  have mantissa : roundHalfEven (n * Nat.pow 2 (-((n.log2 : Int) - 52)).toNat)
      (1 * Nat.pow 2 ((n.log2 : Int) - 52).toNat) = wholeMantissa n := by
    have up : (-((n.log2 : Int) - 52)).toNat = 52 - n.log2 := by omega
    have down : ((n.log2 : Int) - 52).toNat = n.log2 - 52 := by omega
    rw [up, down, Nat.one_mul]
    rfl
  unfold ofRatio?
  rw [if_neg zero, exponent]
  dsimp only
  rw [mantissa]
  split
  · next overflow =>
      have canonical : CanonicalParts (Nat.pow 2 52) ((n.log2 : Int) - 52 + 1) :=
        ⟨by decide, by omega, by omega, .inl (Nat.le_refl _)⟩
      refine ⟨_, dif_pos canonical, rfl, ?_⟩
      have places : ((n.log2 : Int) - 52 + 1 + 1074).toNat = n.log2 + k + 1 := by omega
      have carried : 52 + (n.log2 + k + 1) = 53 + (n.log2 + k) := by omega
      rw [← wholeMantissa_mul, overflow, places]
      change 2 ^ 52 * 2 ^ (n.log2 + k + 1) = 2 ^ 53 * 2 ^ (n.log2 + k)
      rw [← Nat.pow_add, carried, Nat.pow_add]
  · next fits =>
      have canonical : CanonicalParts (wholeMantissa n) ((n.log2 : Int) - 52) :=
        ⟨Nat.lt_of_le_of_ne (wholeMantissa_le n) fits, by omega, by omega, .inl full⟩
      refine ⟨_, dif_pos canonical, rfl, ?_⟩
      have places : ((n.log2 : Int) - 52 + 1074).toNat = n.log2 + k := by omega
      rw [places]
      exact wholeMantissa_mul n k

/-- Whole numbers of at most 64 bits are held as the nearest ones with 53 bits, all of them in the
same unit. -/
theorem exists_units_ofInt : ∃ unit : Nat, 0 < unit ∧
    ∀ n : Int, n.natAbs < 2 ^ 64 → (ofInt n).units = nearest n * unit := by
  obtain ⟨k, least⟩ : ∃ k, 52 + k = 1074 := ⟨1022, rfl⟩
  refine ⟨2 ^ (52 + k), Nat.two_pow_pos _, fun n small => ?_⟩
  obtain ⟨x, rounded, sign, parts⟩ := exists_ofRatio? (decide (n < 0)) small least
  have held : ofInt n = x := by rw [ofInt, rounded, Option.getD_some]
  have size : x.mantissa * Nat.pow 2 (x.exponent + 1074).toNat = _ := parts
  rw [held, units, size, sign, nearest]
  by_cases below : n < 0
  · rw [decide_eq_true below, if_pos rfl, if_pos below, Int.natCast_mul, Int.neg_mul]
  · rw [decide_eq_false below, if_neg Bool.false_ne_true, if_neg below, Int.natCast_mul]

end Double

/-! ## Comparing whole numbers as doubles -/

namespace Real64

variable {a b : Int}

theorem eq_ofInt (small_a : a.natAbs < 2 ^ 64) (small_b : b.natAbs < 2 ^ 64) :
    eq (finite (.ofInt a)) (finite (.ofInt b)) = decide (nearest a = nearest b) := by
  obtain ⟨unit, positive, held⟩ := Double.exists_units_ofInt
  have units : (unit : Int) ≠ 0 := by omega
  rw [eq, Double.same, held a small_a, held b small_b, Bool.eq_iff_iff, beq_iff_eq,
    decide_eq_true_iff]
  exact Int.mul_eq_mul_right_iff units

theorem le_ofInt (small_a : a.natAbs < 2 ^ 64) (small_b : b.natAbs < 2 ^ 64) :
    le (finite (.ofInt a)) (finite (.ofInt b)) = decide (nearest a ≤ nearest b) := by
  obtain ⟨unit, positive, held⟩ := Double.exists_units_ofInt
  have units : (0 : Int) < unit := Int.natCast_pos.2 positive
  rw [le, held a small_a, held b small_b, decide_eq_decide]
  exact Int.mul_le_mul_iff_of_pos_right units

theorem lt_ofInt (small_a : a.natAbs < 2 ^ 64) (small_b : b.natAbs < 2 ^ 64) :
    lt (finite (.ofInt a)) (finite (.ofInt b)) = decide (nearest a < nearest b) := by
  rw [lt, eq_ofInt small_a small_b, le_ofInt small_a small_b, Bool.eq_iff_iff]
  simp only [Bool.and_eq_true, Bool.not_eq_true', decide_eq_true_iff, decide_eq_false_iff_not]
  omega

end Real64

end Flowline
