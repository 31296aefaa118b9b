import Flowline.Calendar.Scan

/-!
# Timestamps

The form `2024-01-02T03:04:05.678+02:00`. `Timestamp.read` takes it strictly; `readLoose` also
takes blanks around the separators, numbers without leading zeros, signed years, and the name of
universal time.
-/

namespace Flowline

namespace Timestamp

/-- Read the letter or blank between date and time. -/
def separator : Scan Unit := do
  match ← get with
  | [] => throw .tooShort
  | c :: rest => if c = 'T' ∨ c = 't' ∨ c = ' ' then set rest else throw .invalid

/-- The greatest offset, in seconds. -/
def maxOffset : Int := (23 * 60 + 59) * 60

/-- Scan the strict form. -/
def scanStrict : Scan Scan.Fields := do
  let year ← Scan.number 4 4
  Scan.char '-'
  let month ← Scan.bounded 2 2 1 12
  Scan.char '-'
  let day ← Scan.bounded 2 2 1 31
  separator
  let hour ← Scan.bounded 2 2 0 23
  Scan.char ':'
  let minute ← Scan.bounded 2 2 0 59
  Scan.char ':'
  let second ← Scan.bounded 2 2 0 60
  let nano ← Scan.fraction
  let offset ← Scan.offset (Scan.char ':')
  if !(-maxOffset ≤ offset ∧ offset ≤ maxOffset) then throw .outOfRange
  return { year, month, day, hour, minute, second, nano, offset }

/-- Read the strict form. -/
def read (text : String) : Except InstantFault Instant := Scan.runAll scanStrict text.toList

/-- Read a year: up to four digits, or any number of them behind a sign. -/
def looseYear : Scan Int := do
  Scan.blanks
  let text ← get
  let year : Int ← match text with
    | '-' :: rest => do
      set rest
      let n ← Scan.number 1 rest.length.succ
      pure (-(n : Int))
    | '+' :: rest => do
      set rest
      let n ← Scan.number 1 rest.length.succ
      pure (n : Int)
    | _ => do
      let n ← Scan.number 1 4
      pure (n : Int)
  if -Int.pow 2 31 ≤ year ∧ year < Int.pow 2 31 then return year else throw .outOfRange

/-- Read a number of one or two digits within bounds, behind blanks. -/
def looseNumber (low high : Nat) : Scan Nat := do
  Scan.blanks
  Scan.bounded 1 2 low high

/-- Read a separator behind blanks. -/
def looseChar (c : Char) : Scan Unit := do
  Scan.blanks
  Scan.char c

/-- Read an offset, the name of universal time, or its letter. -/
def looseOffset : Scan Int := do
  let text ← get
  if (text.take 3).map lowerAscii = ['u', 't', 'c'] then
    set (text.drop 3)
    return 0
  else Scan.offset (modify (·.dropWhile fun c => c == ':' || isBlank c))

/-- Scan the loose form. -/
def scanLoose : Scan Scan.Fields := do
  let year ← looseYear
  looseChar '-'
  let month ← looseNumber 1 12
  looseChar '-'
  let day ← looseNumber 1 31
  separator
  let hour ← looseNumber 0 23
  looseChar ':'
  let minute ← looseNumber 0 59
  looseChar ':'
  let second ← looseNumber 0 60
  let nano ← Scan.fraction
  Scan.blanks
  let offset ← looseOffset
  Scan.blanks
  return { year, month, day, hour, minute, second, nano, offset }

/-- Read the loose form. -/
def readLoose (text : String) : Except InstantFault Instant := Scan.runAll scanLoose text.toList

end Timestamp

end Flowline
