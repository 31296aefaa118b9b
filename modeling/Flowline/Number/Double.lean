/-!
# Binary floating-point numbers

A `Double` is a finite number of 53 significant bits, held as a sign, a mantissa and an exponent
in canonical form, so that every operation is exact integer arithmetic. `Real64` adds the
infinities and the value that is not a number. `Double.ofRatio?` rounds a quotient of naturals to
the nearest `Double`, an exact tie to the even mantissa, and refuses what is too large.
-/

namespace Flowline

/-- `num / den` rounded to the nearest natural number, a half to the even neighbour. -/
def roundHalfEven (num den : Nat) : Nat :=
  let q := num / den
  let r := num % den
  if 2 * r < den then q
  else if den < 2 * r then q + 1
  else if q % 2 = 0 then q else q + 1

/-- The greatest `e` with `2 ^ e ≤ num / den`, for positive `num` and `den`. -/
def floorLog2 (num den : Nat) : Int :=
  let e : Int := (num.log2 : Int) - (den.log2 : Int)
  if num * Nat.pow 2 (-e).toNat < den * Nat.pow 2 e.toNat then e - 1 else e

/-- Mantissa and exponent of a finite number with 53 significant bits: the mantissa is full
unless the exponent is the least one. -/
def CanonicalParts (mantissa : Nat) (exponent : Int) : Prop :=
  mantissa < Nat.pow 2 53 ∧ -1074 ≤ exponent ∧ exponent ≤ 971 ∧
    (Nat.pow 2 52 ≤ mantissa ∨ exponent = -1074)

instance (m : Nat) (q : Int) : Decidable (CanonicalParts m q) :=
  inferInstanceAs (Decidable (_ ∧ _ ∧ _ ∧ _))

/-- The finite number `± mantissa * 2 ^ exponent`. -/
structure Double where
  negative : Bool
  mantissa : Nat
  exponent : Int
  canonical : CanonicalParts mantissa exponent
deriving DecidableEq

namespace Double

/-- Zero with a sign. -/
def zero (negative : Bool) : Double :=
  { negative, mantissa := 0, exponent := -1074, canonical := by decide }

instance : Inhabited Double := ⟨zero false⟩

/-- The number with these parts, if they are canonical. -/
def ofParts? (negative : Bool) (mantissa : Nat) (exponent : Int) : Option Double :=
  if canonical : CanonicalParts mantissa exponent then
    some { negative, mantissa, exponent, canonical }
  else none

/-- The number nearest to `± num / den`, a tie going to the even mantissa; `none` if that is
beyond the greatest finite number. -/
def ofRatio? (negative : Bool) (num den : Nat) : Option Double :=
  if num = 0 then some (zero negative)
  else
    let exponent := max (floorLog2 num den - 52) (-1074)
    let mantissa :=
      roundHalfEven (num * Nat.pow 2 (-exponent).toNat) (den * Nat.pow 2 exponent.toNat)
    if mantissa = Nat.pow 2 53 then ofParts? negative (Nat.pow 2 52) (exponent + 1)
    else ofParts? negative mantissa exponent

/-- The number as a whole multiple of the least positive one, which is `2 ^ -1074`. -/
def units (x : Double) : Int :=
  let size : Int := (x.mantissa * Nat.pow 2 (x.exponent + 1074).toNat : Nat)
  if x.negative then -size else size

/-- The two numbers are equal; the zeros of both signs are. -/
def same (x y : Double) : Bool := x.units == y.units

/-- The number with the other sign. -/
def neg (x : Double) : Double := { x with negative := !x.negative }

/-- The number is one of the two zeros. -/
def isZero (x : Double) : Bool := x.mantissa == 0

/-- Numerator and denominator of the magnitude. -/
def ratio (x : Double) : Nat × Nat :=
  (x.mantissa * Nat.pow 2 x.exponent.toNat, Nat.pow 2 (-x.exponent).toNat)

/-- The rounded product, `none` if it is too large. -/
def mul? (x y : Double) : Option Double :=
  ofRatio? (x.negative != y.negative) (x.ratio.1 * y.ratio.1) (x.ratio.2 * y.ratio.2)

/-- The rounded quotient by a number that is not zero, `none` if it is too large. -/
def div? (x y : Double) : Option Double :=
  ofRatio? (x.negative != y.negative) (x.ratio.1 * y.ratio.2) (x.ratio.2 * y.ratio.1)

/-- The number nearest to a whole number below `2 ^ 64`. -/
def ofNat (n : Nat) : Double := (ofRatio? false n 1).getD (zero false)

/-- The number nearest to a whole number of at most 64 bits. -/
def ofInt (n : Int) : Double := (ofRatio? (decide (n < 0)) n.natAbs 1).getD (zero false)

/-- The power of ten nearest to the exact one, for exponents up to 308. -/
def powerOfTen (k : Nat) : Double := ofNat (Nat.pow 10 k)

end Double

/-- A number as a text can denote it: finite, infinite, or not a number at all. -/
inductive Real64 where
  | finite (x : Double)
  | infinite (negative : Bool)
  | nan

namespace Real64

/-- Equality of numbers; what is not a number equals nothing. -/
def eq : Real64 → Real64 → Bool
  | finite x, finite y => x.same y
  | infinite a, infinite b => a == b
  | _, _ => false

/-- At most; false as soon as one side is not a number. -/
def le : Real64 → Real64 → Bool
  | finite x, finite y => decide (x.units ≤ y.units)
  | finite _, infinite negative => !negative
  | infinite negative, finite _ => negative
  | infinite a, infinite b => a || !b
  | nan, _ => false
  | _, nan => false

/-- Less than; false as soon as one side is not a number. -/
def lt (x y : Real64) : Bool := le x y && !eq x y

end Real64

end Flowline
