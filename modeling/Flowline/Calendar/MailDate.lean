import Flowline.Calendar.Scan

/-!
# Dates of mail and news

The form `Mon, 01 Jan 2024 10:00:00 +0000` of message headers and feeds. The weekday and the
seconds may be missing, a zone may have one of a few names, names may be in any case, and comments
in parentheses may follow.
-/

namespace Flowline

namespace MailDate

/-- Read a name of three letters: its place in a list. -/
def shortName (names : List String) : Scan Nat := do
  let text ← get
  let word := String.ofList ((text.take 3).map lowerAscii)
  match names.findIdx? (· == word) with
  | some n => set (text.drop 3); return n
  | none => throw (if (String.ofList text).utf8ByteSize < 3 then .tooShort else .invalid)

/-- The names of the weekdays, from Monday. -/
def weekdays : List String := ["mon", "tue", "wed", "thu", "fri", "sat", "sun"]

/-- The names of the months. -/
def months : List String :=
  ["jan", "feb", "mar", "apr", "may", "jun", "jul", "aug", "sep", "oct", "nov", "dec"]

/-- The weekday and its comma, if a weekday stands in front. -/
def weekday : Scan (Option Nat) := do
  match (shortName weekdays).run (← get) with
  | .ok (n, ',' :: rest) => set rest; return some n
  | .ok _ => throw .invalid
  | .error _ => return none

/-- The year: two digits are of the years 1950 to 2049, three are counted from 1900. -/
def year : Scan Int := do
  let text ← get
  let n ← Scan.number 2 (text.length + 2)
  let width := text.length - (← get).length
  let year : Int :=
    if width = 2 then (if n < 50 then n + 2000 else n + 1900)
    else if width = 3 then n + 1900 else n
  if year < Nat.pow 2 31 then return year else throw .outOfRange

/-- The named zones and their hours from universal time. -/
def zones : List (String × Int) :=
  [("gmt", 0), ("ut", 0), ("z", 0), ("edt", -4), ("est", -5), ("cdt", -5), ("cst", -6),
    ("mdt", -6), ("mst", -7), ("pdt", -7), ("pst", -8)]

/-- ASCII letters. -/
def isLetter (c : Char) : Bool := 'a' ≤ lowerAscii c && lowerAscii c ≤ 'z'

/-- The zone: a name, a single letter other than `J`, which tells nothing, or a number. -/
def zone : Scan Int := do
  let text ← get
  let name := String.ofList ((text.takeWhile isLetter).map lowerAscii)
  if name = "" then Scan.numericOffset (pure ()) false
  else
    set (text.dropWhile isLetter)
    match zones.lookup name with
    | some hours => return hours * 3600
    | none => if name.length = 1 ∧ name ≠ "j" then return 0 else throw .invalid

/-- What stands behind the parenthesis that closes a comment. -/
def closeComment? (depth : Nat) (escaped : Bool) : List Char → Option (List Char)
  | [] => none
  | c :: rest =>
    if escaped then closeComment? depth false rest
    else if c = '\\' then closeComment? depth true rest
    else if c = '(' then closeComment? (depth + 1) false rest
    else if c = ')' then (if depth ≤ 1 then some rest else closeComment? (depth - 1) false rest)
    else closeComment? depth false rest

theorem length_le_of_closeComment? {depth : Nat} {escaped : Bool} {text rest : List Char}
    (h : closeComment? depth escaped text = some rest) : rest.length ≤ text.length := by
  induction text generalizing depth escaped with
  | nil => simp [closeComment?] at h
  | cons c text ih =>
    rw [closeComment?] at h
    simp only [List.length_cons]
    split at h
    · exact Nat.le_succ_of_le (ih h)
    · split at h
      · exact Nat.le_succ_of_le (ih h)
      · split at h
        · exact Nat.le_succ_of_le (ih h)
        · split at h
          · split at h
            · simp only [Option.some.injEq] at h
              subst h
              omega
            · exact Nat.le_succ_of_le (ih h)
          · exact Nat.le_succ_of_le (ih h)

/-- Drop the comments in front, each with the blanks before it. -/
def skipComments (text : List Char) : List Char :=
  match _hopen : trimStartChars text with
  | '(' :: inner =>
    match _hclose : closeComment? 1 false inner with
    | some rest => skipComments rest
    | none => text
  | _ => text
termination_by text.length
decreasing_by
  have h := length_le_of_closeComment? _hclose
  have h' : (trimStartChars text).length ≤ text.length := (List.dropWhile_sublist _).length_le
  rw [_hopen] at h'
  simp only [List.length_cons] at h'
  omega

/-- Scan a whole date. -/
def scan : Scan Scan.Fields := do
  Scan.blanks
  let weekday ← weekday
  Scan.blanks
  let day ← Scan.bounded 1 2 1 31
  Scan.someBlanks
  let month ← shortName months
  Scan.someBlanks
  let year ← year
  Scan.someBlanks
  let hour ← Scan.bounded 2 2 0 23
  Scan.blanks
  Scan.char ':'
  Scan.blanks
  let minute ← Scan.bounded 2 2 0 59
  let second ← match trimStartChars (← get) with
    | ':' :: rest => do
      set rest
      Scan.bounded 2 2 0 60
    | _ => pure 0
  Scan.someBlanks
  let offset ← zone
  modify skipComments
  return { year, month := month + 1, day, hour, minute, second, nano := 0, offset, weekday }

/-- Read a date. -/
def read (text : String) : Except InstantFault Instant := Scan.runAll scan text.toList

end MailDate

end Flowline
