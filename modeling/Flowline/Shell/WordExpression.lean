import Flowline.Shell.Filter

/-!
# Expressions of words

The expressions of `expr`, in which each operand and each operator is an argument of its own. A
value is a text, which counts as a number if it is written as one.
-/

namespace Flowline.Shell

namespace WordExpression

/-- Why an expression has no value. -/
inductive Fault where
  | missing
  | notWhole
  | notNumeric
  | divisionByZero
  | badPattern

/-- The fault in words. -/
def Fault.message : Fault → String
  | missing => "missing operand"
  | notWhole => "syntax error"
  | notNumeric => "non-integer argument"
  | divisionByZero => "division by zero"
  | badPattern => "Invalid regular expression"

/-- The number that a value is written as. -/
def number? (s : String) : Option Int :=
  let (negative, digits) := match s.toList with
    | '-' :: rest => (true, rest)
    | cs => (false, cs)
  if digits.isEmpty || !digits.all isDigit then none
  else
    let n : Int := digitsValue 0 digits
    some (if negative then -n else n)

/-- The value counts as true. -/
def isTrue (s : String) : Bool := s != "" && number? s != some 0

/-- What a match of a pattern at the beginning of a text gives: the first group or, if the pattern
has none, the number of characters. -/
def matched (text pattern : String) : Except Fault String :=
  match Regex.readAny false (8 * pattern.length + 8) 0 pattern.toList with
  | some { found, groups, rest := [] } =>
    let f := found.matchHere id none text.toList
    if 0 < groups then return String.ofList ((f.bind fun f => f.groups.lookup 1).getD [])
    else return Json.intText ((f.map fun f => f.text.length).getD 0)
  | _ => throw .badPattern

/-- How tightly an operator binds. -/
def level? : String → Option Nat
  | "|" => some 1
  | "&" => some 2
  | "<" | "<=" | "=" | "==" | "!=" | ">=" | ">" => some 3
  | "+" | "-" => some 4
  | "*" | "/" | "%" => some 5
  | ":" => some 6
  | _ => none

/-- The order of two values: as numbers if both are, and else as texts. -/
def order (a b : String) : Ordering :=
  match number? a, number? b with
  | some x, some y => compare x y
  | _, _ => if a < b then .lt else if a = b then .eq else .gt

/-- The value of an operator. -/
def operate (op a b : String) : Except Fault String := do
  let truth (holds : Bool) : String := if holds then "1" else "0"
  let numbers (f : Int → Int → Int) : Except Fault String :=
    match number? a, number? b with
    | some x, some y => return Json.intText (f x y)
    | _, _ => throw .notNumeric
  match op with
  | "|" => return if isTrue a then a else if b == "" then "0" else b
  | "&" => return if isTrue a && isTrue b then a else "0"
  | "<" => return truth (order a b == .lt)
  | "<=" => return truth (order a b != .gt)
  | "=" | "==" => return truth (order a b == .eq)
  | "!=" => return truth (order a b != .eq)
  | ">=" => return truth (order a b != .lt)
  | ">" => return truth (order a b == .gt)
  | "+" => numbers (· + ·)
  | "-" => numbers (· - ·)
  | "*" => numbers (· * ·)
  | ":" => matched a b
  | _ =>
    if (number? a).isSome && number? b = some 0 then throw .divisionByZero
    else numbers (if op == "/" then Int.tdiv else Int.tmod)

/-- A value, and the words that follow. -/
abbrev Parsed := Except Fault (String × List String)

mutual

/-- Operands joined by operators that bind at least as tightly as a level says. -/
def binaries : Nat → Nat → List String → Parsed
  | 0, _, _ => throw .notWhole
  | fuel + 1, least, words => do
    let (first, rest) ← operand fuel words
    extend fuel least first rest

/-- Extend a left operand as far as the level allows. -/
def extend : Nat → Nat → String → List String → Parsed
  | 0, _, _, _ => throw .notWhole
  | fuel + 1, least, left, words =>
    match words with
    | [] => return (left, words)
    | op :: rest =>
      match level? op with
      | some level =>
        if least ≤ level then do
          let (right, rest) ← binaries fuel (level + 1) rest
          extend fuel least (← operate op left right) rest
        else return (left, words)
      | none => return (left, words)

/-- An operand. -/
def operand : Nat → List String → Parsed
  | 0, _ => throw .notWhole
  | fuel + 1, words =>
    match words with
    | [] => throw .notWhole
    | "(" :: rest => do
      match ← binaries fuel 1 rest with
      | (value, ")" :: rest) => return (value, rest)
      | _ => throw .notWhole
    | "+" :: s :: rest => return (s, rest)
    | "length" :: s :: rest => return (Json.intText s.length, rest)
    | "match" :: s :: pattern :: rest => return (← matched s pattern, rest)
    | "index" :: s :: set :: rest =>
      let place := s.toList.findIdx? fun c => set.toList.contains c
      return (Json.intText (place.elim 0 (· + 1)), rest)
    | "substr" :: s :: first :: count :: rest =>
      match number? first, number? count with
      | some i, some n =>
        if i ≤ 0 || n ≤ 0 then return ("", rest)
        else return (String.ofList ((s.toList.drop (i.toNat - 1)).take n.toNat), rest)
      | _, _ => return ("", rest)
    | s :: rest => if s == ")" then throw .notWhole else return (s, rest)

end

/-- The value of an expression. -/
def value (words : List String) : Except Fault String := do
  if words.isEmpty then throw .missing
  match ← binaries (4 * words.length + 8) 1 words with
  | (value, []) => return value
  | _ => throw .notWhole

end WordExpression

end Flowline.Shell
