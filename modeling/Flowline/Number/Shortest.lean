import Flowline.Number.Double

/-!
# The fewest digits that read back

`Double.shortest` selects, among the decimals that round to a given number, one with the fewest
digits, and of those the nearest. `Double.text` lays it out: positional for decimal exponents
from -5 to 15, always with a point, otherwise with a signed exponent.
-/

namespace Flowline

/-- The decimal `digits * 10 ^ exponent`. -/
structure Decimal where
  digits : Nat
  exponent : Int
deriving DecidableEq

namespace Decimal

/-- Compare `a * 10 ^ i` with `n * 2 ^ j`, exactly. -/
def compareScaled (a : Nat) (i : Int) (n : Nat) (j : Int) : Ordering :=
  compare (a * Nat.pow 10 i.toNat * Nat.pow 2 (-j).toNat)
    (n * Nat.pow 2 j.toNat * Nat.pow 10 (-i).toNat)

/-- The decimal digits of a natural number, first digit first. -/
def digitChars (n : Nat) : List Char := Nat.toDigits 10 n

/-- How many digits a natural number has. -/
def width (n : Nat) : Nat := (digitChars n).length

/-- Move the zeros at the end of the digits into the exponent. -/
def strip : Nat → Decimal → Decimal
  | 0, d => d
  | steps + 1, d =>
    if d.digits ≠ 0 ∧ d.digits % 10 = 0 then strip steps ⟨d.digits / 10, d.exponent + 1⟩ else d

end Decimal

namespace Double

/-- The decimal lies among the reals that round to `x`: from half way to the neighbour below to
half way to the neighbour above, ends included when the mantissa is even. Below a power of two
the neighbour is half as far. -/
def readsBack (x : Double) (d : Decimal) : Bool :=
  let narrow := x.mantissa == Nat.pow 2 52 && decide (-1074 < x.exponent)
  let low := if narrow then 4 * x.mantissa - 1 else 4 * x.mantissa - 2
  let high := 4 * x.mantissa + 2
  let closed := x.mantissa % 2 == 0
  let fromLow := Decimal.compareScaled d.digits d.exponent low (x.exponent - 2)
  let fromHigh := Decimal.compareScaled d.digits d.exponent high (x.exponent - 2)
  (fromLow == .gt || (closed && fromLow == .eq)) && (fromHigh == .lt || (closed && fromHigh == .eq))

/-- The least `k` with magnitude below `10 ^ k`, for a number other than zero. -/
def decimalScale (x : Double) : Int :=
  let (num, den) := x.ratio
  if den ≤ num then Decimal.width (num / den)
  else
    let zeros := Decimal.width (den / num) - 1
    if num * Nat.pow 10 zeros < den then -(zeros : Int) else 1 - (zeros : Int)

/-- The candidate of `n` digits: of the two neighbours on that decimal grid that read back the
nearer one, the even one of two equally near. -/
def candidate? (x : Double) (scale : Int) (n : Nat) : Option Decimal :=
  let exponent := scale - n
  let (num, den) := x.ratio
  let num := num * Nat.pow 10 (-exponent).toNat
  let den := den * Nat.pow 10 exponent.toNat
  let below : Decimal := ⟨num / den, exponent⟩
  let above : Decimal := ⟨num / den + 1, exponent⟩
  match x.readsBack below, x.readsBack above with
  | true, true => some ⟨roundHalfEven num den, exponent⟩
  | true, false => some below
  | false, true => some above
  | false, false => none

/-- The decimal with the fewest digits that rounds to the magnitude of `x`, without zeros at its
end. Seventeen digits are always enough. -/
def shortest (x : Double) : Decimal :=
  if x.isZero then ⟨0, 0⟩
  else
    match (List.range' 1 17).findSome? (candidate? x x.decimalScale) with
    | some d => d.strip 17
    | none => ⟨0, 0⟩

/-- The written form of a number. Exponents of the leading digit from -5 to 15 are written out in
full with at least one digit on each side of the point; the others as a mantissa and an exponent
that always carries its sign. -/
def text (x : Double) : String :=
  let d := x.shortest
  let digits := Decimal.digitChars d.digits
  let leading : Int := d.exponent + digits.length - 1
  let body :=
    if x.isZero then ['0', '.', '0']
    else if -5 ≤ leading ∧ leading < 16 then
      if leading < 0 then
        ['0', '.'] ++ List.replicate (-leading - 1).toNat '0' ++ digits
      else
        let whole := leading.toNat + 1
        if digits.length ≤ whole then
          digits ++ List.replicate (whole - digits.length) '0' ++ ['.', '0']
        else digits.take whole ++ '.' :: digits.drop whole
    else
      let mantissa :=
        match digits with
        | first :: second :: rest => first :: '.' :: second :: rest
        | short => short
      mantissa ++ 'e' :: (if leading < 0 then '-' else '+') :: Decimal.digitChars leading.natAbs
  String.ofList (if x.negative then '-' :: body else body)

end Double

end Flowline
