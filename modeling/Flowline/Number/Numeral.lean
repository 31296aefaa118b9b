import Flowline.Number.Shortest

/-!
# Reading numerals

`readNat?` reads a bounded whole number and `Real64.read?` a number with optional sign, point and
exponent, or one of the words for what is not finite. Only ASCII digits count.
-/

namespace Flowline

/-- The value of an ASCII digit. -/
def digit? (c : Char) : Option Nat :=
  if '0' ≤ c ∧ c ≤ '9' then some (c.toNat - '0'.toNat) else none

/-- The character is an ASCII digit. -/
def isDigit (c : Char) : Bool := (digit? c).isSome

/-- The number that a list of digits denotes, read after `start`. -/
def digitsValue (start : Nat) (cs : List Char) : Nat :=
  cs.foldl (fun n c => 10 * n + (digit? c).getD 0) start

/-- The digits in front, and what follows them. -/
def spanDigits (cs : List Char) : List Char × List Char :=
  (cs.takeWhile isDigit, cs.dropWhile isDigit)

/-- A whole number up to `limit`: digits, at least one, after an optional plus sign. -/
def readNat? (limit : Nat) (s : String) : Option Nat :=
  let digits := match s.toList with
    | '+' :: rest => rest
    | all => all
  if digits ≠ [] ∧ digits.all isDigit then
    let n := digitsValue 0 digits
    if n ≤ limit then some n else none
  else none

/-- The greatest numbers of 16, 32 and 64 bits. -/
def maxWord16 : Nat := Nat.pow 2 16 - 1
def maxWord32 : Nat := Nat.pow 2 32 - 1
def maxWord64 : Nat := Nat.pow 2 64 - 1

/-- ASCII letters in lower case, all else unchanged. -/
def lowerAscii (c : Char) : Char :=
  if 'A' ≤ c ∧ c ≤ 'Z' then Char.ofNat (c.toNat + 32) else c

/-- The two texts differ at most in the case of ASCII letters. -/
def sameIgnoringAsciiCase (a b : String) : Bool :=
  a.toList.map lowerAscii == b.toList.map lowerAscii

namespace Real64

/-- The number nearest to `± digits * 10 ^ exponent`, infinite if that is too large. -/
def ofDecimal (negative : Bool) (digits : Nat) (exponent : Int) : Real64 :=
  let leading := exponent + Decimal.width digits
  if digits = 0 ∨ leading < -330 then finite (Double.zero negative)
  else if 310 < leading then infinite negative
  else
    match Double.ofRatio? negative (digits * Nat.pow 10 exponent.toNat)
        (Nat.pow 10 (-exponent).toNat) with
    | some x => finite x
    | none => infinite negative

/-- The exponent written after a mantissa: nothing, or a mark, an optional sign and digits. -/
def readExponent? : List Char → Option Int
  | [] => some 0
  | mark :: rest =>
    if mark = 'e' ∨ mark = 'E' then
      let (negative, digits) := match rest with
        | '-' :: ds => (true, ds)
        | '+' :: ds => (false, ds)
        | ds => (false, ds)
      if digits ≠ [] ∧ digits.all isDigit then
        let n : Int := digitsValue 0 digits
        some (if negative then -n else n)
      else none
    else none

/-- An unsigned number: digits with an optional point among or around them, and an exponent. -/
def readUnsigned? (negative : Bool) (cs : List Char) : Option Real64 :=
  let (whole, rest) := spanDigits cs
  let (fraction, rest) := match rest with
    | '.' :: rest => spanDigits rest
    | rest => ([], rest)
  if whole = [] ∧ fraction = [] then none
  else do
    let exponent ← readExponent? rest
    some (ofDecimal negative (digitsValue 0 (whole ++ fraction)) (exponent - fraction.length))

/-- The number that a text denotes: an optional sign, then a decimal number or, in any case, one
of the words for infinity and for what is not a number. -/
def read? (s : String) : Option Real64 :=
  let (negative, body) := match s.toList with
    | '-' :: rest => (true, rest)
    | '+' :: rest => (false, rest)
    | all => (false, all)
  let word := String.ofList (body.map lowerAscii)
  if word = "inf" ∨ word = "infinity" then some (infinite negative)
  else if word = "nan" then some nan
  else readUnsigned? negative body

end Real64

end Flowline
