import Flowline.Calendar.Basic
import Flowline.Text.Blank

/-!
# Scanning dates and times

The parts that the written forms of an instant share. A scan consumes characters from the front
of a text or fails with the reason.
-/

namespace Flowline

/-- Why a text is no instant. -/
inductive InstantFault where
  | outOfRange
  | impossible
  | invalid
  | tooShort
  | tooLong
deriving DecidableEq

/-- The fault in words. -/
def InstantFault.message : InstantFault → String
  | outOfRange => "input is out of range"
  | impossible => "no possible date and time matching input"
  | invalid => "input contains invalid characters"
  | tooShort => "premature end of input"
  | tooLong => "trailing input"

/-- Reading from the front of a text. -/
abbrev Scan := StateT (List Char) (Except InstantFault)

namespace Scan

/-- Skip blanks. -/
def blanks : Scan Unit := modify trimStartChars

/-- Skip blanks, at least one. -/
def someBlanks : Scan Unit := do
  match ← get with
  | [] => throw .tooShort
  | c :: _ => if isBlank c then blanks else throw .invalid

/-- Read one given character. -/
def char (expected : Char) : Scan Unit := do
  match ← get with
  | [] => throw .tooShort
  | c :: rest => if c = expected then set rest else throw .invalid

/-- Read a number of at least `least` and at most `most` digits, of 63 bits. -/
def number (least most : Nat) : Scan Nat := do
  let text ← get
  let digits := (text.take most).takeWhile isDigit
  if (String.ofList text).utf8ByteSize < least then throw .tooShort
  if digits.length < least then
    if digits.length < text.length then throw .invalid else throw .tooShort
  let n := digitsValue 0 digits
  if Nat.pow 2 63 ≤ n then throw .outOfRange
  set (text.drop digits.length)
  return n

/-- Read a number of a fixed width within bounds. -/
def bounded (least most low high : Nat) : Scan Nat := do
  let n ← number least most
  if low ≤ n ∧ n ≤ high then return n else throw .outOfRange

/-- Read the digits behind a decimal point of a second; those after the ninth do not count. -/
def fraction : Scan Nat := do
  let text ← get
  match text with
  | '.' :: rest =>
    set rest
    let before := rest.length
    let n ← number 1 9
    let taken := before - (← get).length
    modify (·.dropWhile isDigit)
    return n * Nat.pow 10 (9 - taken)
  | _ => return 0

/-- Read two digits. -/
def twoDigits : Scan (Nat × Nat) := do
  let text ← get
  if (String.ofList text).utf8ByteSize < 2 then throw .tooShort
  match text with
  | a :: b :: rest =>
    match digit? a, digit? b with
    | some m, some n => set rest; return (m, n)
    | _, _ => throw .invalid
  | _ => throw .invalid

/-- Read an offset from universal time, in seconds: a sign, hours, a separator, minutes.
`longMinus` also takes the minus sign that is no hyphen. -/
def numericOffset (separator : Scan Unit) (longMinus : Bool) : Scan Int := do
  let negative ← match ← get with
    | '+' :: rest => set rest; pure false
    | '-' :: rest => set rest; pure true
    | '\u2212' :: rest => if longMinus then set rest; pure true else throw .invalid
    | [] => throw .tooShort
    | _ => throw .invalid
  let (h, h') ← twoDigits
  separator
  let (m, m') ← twoDigits
  if 6 ≤ m then throw .outOfRange
  let seconds : Int := ((10 * h + h') * 3600 + (10 * m + m') * 60 : Nat)
  return if negative then -seconds else seconds

/-- Read an offset from universal time, which may be the letter for none. -/
def offset (separator : Scan Unit) : Scan Int := do
  match ← get with
  | 'Z' :: rest => set rest; return 0
  | 'z' :: rest => set rest; return 0
  | _ => numericOffset separator true

/-- A date and a time of day with their offset from universal time, as written. -/
structure Fields where
  year : Int
  month : Nat
  day : Nat
  hour : Nat
  minute : Nat
  second : Nat
  nano : Nat
  offset : Int
  weekday : Option Nat := none

/-- The instant of a written date and time. The date must exist and fall on the weekday, and the
offset must be less than a day. -/
def Fields.toInstant (f : Fields) : Except InstantFault Instant := do
  if !Calendar.isDate f.year f.month f.day then throw .outOfRange
  let day := Calendar.dayNumber f.year f.month f.day
  if f.weekday.any (· != Calendar.weekday day) then throw .impossible
  if !(-86400 < f.offset ∧ f.offset < 86400) then throw .outOfRange
  let leap := f.second = 60
  let second := if leap then 59 else f.second
  let local_ : Int := (f.hour * 3600 + f.minute * 60 + second : Nat)
  let utc := local_ - f.offset
  let utcDay := day + utc / 86400
  if utcDay < Calendar.dayNumber Calendar.firstYear 1 1 ∨
      Calendar.dayNumber Calendar.lastYear 12 31 < utcDay then throw .impossible
  return ⟨utcDay, (utc % 86400).toNat, f.nano + (if leap then 1000000000 else 0)⟩

/-- Scan a whole text and take the instant. -/
def runAll (scan : Scan Fields) (text : List Char) : Except InstantFault Instant := do
  let (fields, rest) ← scan.run text
  if rest ≠ [] then throw .tooLong
  fields.toInstant

end Scan

end Flowline
