import Flowline.Json.Basic
import Flowline.Number.Numeral

/-!
# Numbers in the text of a value

A numeral without point and exponent that fits 64 bits, signed or unsigned, is a whole number.
Any other is a floating-point number: its digits are collected into a 64-bit significand as long
as they fit, and the significand is scaled once by a power of ten, every step rounded to nearest.
-/

namespace Flowline

namespace Json

/-- The parts of a numeral: sign, digits before and after the point, and the exponent. -/
structure Numeral where
  negative : Bool
  whole : List Char
  fraction : List Char
  exponent : Option Int

/-- Split a text into the parts of a numeral. A zero in front stands alone, and a point or an
exponent mark needs digits behind it. -/
def Numeral.ofChars? (cs : List Char) : Option Numeral :=
  let (negative, cs) := match cs with
    | '-' :: rest => (true, rest)
    | all => (false, all)
  let (whole, rest) := spanDigits cs
  let wholeOk := match whole with
    | [] => false
    | '0' :: more => more.isEmpty
    | _ => true
  let split : Option (List Char × List Char) := match rest with
    | '.' :: rest =>
      let (fraction, rest) := spanDigits rest
      if fraction = [] then none else some (fraction, rest)
    | rest => some ([], rest)
  match wholeOk, split with
  | true, some (fraction, []) => some ⟨negative, whole, fraction, none⟩
  | true, some (fraction, rest) =>
    (Real64.readExponent? rest).map fun e => ⟨negative, whole, fraction, some e⟩
  | _, _ => none

/-- Append digits to a significand while it fits 64 bits; also how many were taken. -/
def takeDigits (significand : Nat) : List Char → Nat × Nat
  | [] => (significand, 0)
  | c :: rest =>
    let next := 10 * significand + (digit? c).getD 0
    if next ≤ maxWord64 then
      let (final, taken) := takeDigits next rest
      (final, taken + 1)
    else (significand, 0)

/-- `x / 10 ^ k`, at most 308 powers of ten at a time. -/
def scaleDown (x : Double) (k : Nat) : Double :=
  if x.isZero then x
  else if k ≤ 308 then (x.div? (Double.powerOfTen k)).getD x
  else scaleDown ((x.div? (Double.powerOfTen 308)).getD x) (k - 308)
termination_by k

/-- `significand * 10 ^ exponent`, or `none` if that is too large. -/
def scale? (significand : Nat) (exponent : Int) : Option Double :=
  let x := Double.ofNat significand
  if exponent < 0 then some (scaleDown x exponent.natAbs)
  else if x.isZero then some x
  else if exponent ≤ 308 then x.mul? (Double.powerOfTen exponent.toNat)
  else none

/-- The number that a numeral denotes, or `none` if it is too large. -/
def Numeral.value? (n : Numeral) : Option Json :=
  let (head, takenWhole) := takeDigits 0 n.whole
  let exact := n.fraction = [] ∧ n.exponent = none ∧ takenWhole = n.whole.length
  if exact ∧ n.negative = false then some (int head)
  else if exact ∧ 0 < head ∧ head ≤ Nat.pow 2 63 then some (int (-(head : Int)))
  else
    let (significand, takenFraction) := takeDigits head n.fraction
    let dropped : Int := (n.whole.length : Int) - takenWhole
    let exponent := dropped - takenFraction + n.exponent.getD 0
    (scale? significand exponent).map fun x => float (if n.negative then x.neg else x)

/-- The number written in a text. -/
def readNumber? (cs : List Char) : Option Json := do
  (← Numeral.ofChars? cs).value?

end Json

end Flowline
