import Flowline.Shell.Arithmetic
import Flowline.Shell.Machine

/-!
# Tests

The expressions of `test` and of its brackets. What an expression means depends first on the
number of its words.
-/

namespace Flowline.Shell

namespace Machine

/-- A test of a file; a link is followed unless the test is about links. -/
def testFile (m : Machine) (op path : String) : Bool :=
  let follow := op != "-h" && op != "-L"
  match m.system.files.find follow m.directory path with
  | .error _ => false
  | .ok (_, entry) =>
    match op, entry.node with
    | "-f", .file _ => true
    | "-f", _ => false
    | "-d", node => node = .directory
    | "-c", .device (.stream _) => false
    | "-c", .device _ => true
    | "-c", _ => false
    | "-x", .directory => true
    | "-x", _ => entry.mode &&& 0o111 != 0
    | "-s", .file n => n = 0 || (m.system.files.content n).size != 0
    | "-s", node => node = .directory
    | "-h", .link _ => true
    | "-h", _ => false
    | "-L", .link _ => true
    | "-L", _ => false
    | "-u", _ => entry.mode &&& 0o4000 != 0
    | "-g", _ => entry.mode &&& 0o2000 != 0
    | "-k", _ => entry.mode &&& 0o1000 != 0
    | "-b", _ | "-p", _ | "-S", _ => false
    | _, _ => true

/-- Two paths stand for the same file. -/
def sameFile (m : Machine) (a b : String) : Bool :=
  match m.system.files.find true m.directory a, m.system.files.find true m.directory b with
  | .ok (names, _), .ok (names', _) => names == names'
  | _, _ => false

/-- There is a file of that name. -/
def present (m : Machine) (path : String) : Bool := m.testFile "-e" path

end Machine

namespace Test

/-- What a word can be in an expression. -/
inductive Role where
  | ending
  | unary (op : String)
  | binary (op : String)
  | not
  | and
  | or
  | opening
  | closing
  | operand
deriving DecidableEq

/-- The operators before one operand. -/
def unaryOperators : List String :=
  ["-r", "-w", "-x", "-e", "-f", "-d", "-c", "-b", "-p", "-u", "-g", "-k", "-s", "-t", "-z", "-n",
    "-h", "-O", "-G", "-L", "-S"]

/-- The operators between two operands. -/
def binaryOperators : List String :=
  ["=", "!=", "<", ">", "-eq", "-ne", "-ge", "-gt", "-le", "-lt", "-nt", "-ot", "-ef"]

/-- What a word is when it is no operand. -/
def operator? (s : String) : Option Role :=
  if unaryOperators.contains s then some (.unary s)
  else if binaryOperators.contains s then some (.binary s)
  else
    match s with
    | "!" => some .not
    | "-a" => some .and
    | "-o" => some .or
    | "(" => some .opening
    | ")" => some .closing
    | _ => none

/-- The word is an operator between two operands. -/
def isBinary (s : String) : Bool := binaryOperators.contains s

/-- The role of the first of some words. -/
def role : List String → Role
  | [] => .ending
  | s :: rest =>
    match operator? s with
    | none => .operand
    | some r =>
      let isOperand := match r, rest with
        | .unary _, [] => true
        | .unary _, [_] => false
        | .unary _, next :: _ => isBinary next
        | .opening, [] => true
        | _, _ => false
      if isOperand then .operand else r

/-- Whether an expression holds, or why it is none. -/
abbrev Answer := Except String

/-- The number that an operand denotes. -/
def number (s : String) : Answer Int :=
  match decimal? s with
  | some n => return n
  | none => throw ("Illegal number: " ++ s)

/-- A test of one operand. -/
def unary (m : Machine) (op operand : String) : Answer Bool :=
  match op with
  | "-n" => return operand != ""
  | "-z" => return operand == ""
  | "-t" => do
    discard (number operand)
    return false
  | _ => return m.testFile op operand

/-- A test of two operands. -/
def binary (m : Machine) (a op b : String) : Answer Bool :=
  let numbers (holds : Int → Int → Bool) : Answer Bool := do return holds (← number a) (← number b)
  match op with
  | "=" => return a == b
  | "!=" => return a != b
  | "<" => return decide (a < b)
  | ">" => return decide (b < a)
  | "-eq" => numbers (· == ·)
  | "-ne" => numbers (· != ·)
  | "-lt" => numbers fun x y => decide (x < y)
  | "-le" => numbers fun x y => decide (x ≤ y)
  | "-gt" => numbers fun x y => decide (y < x)
  | "-ge" => numbers fun x y => decide (y ≤ x)
  | "-nt" => return m.present a && !m.present b
  | "-ot" => return !m.present a && m.present b
  | _ => return m.sameFile a b

mutual

/-- Alternatives: whether one holds, and the words from the last one read on. -/
def anyOf (m : Machine) : Nat → Role → List String → Answer (Bool × List String)
  | 0, _, _ => throw "too many operands"
  | fuel + 1, r, words => do
    let (a, words) ← allOf m fuel r words
    if role words.tail = .or then
      let rest := words.drop 2
      let (b, words) ← anyOf m fuel (role rest) rest
      return (a || b, words)
    else return (a, words)

/-- Conditions: whether all hold, and the words from the last one read on. -/
def allOf (m : Machine) : Nat → Role → List String → Answer (Bool × List String)
  | 0, _, _ => throw "too many operands"
  | fuel + 1, r, words => do
    let (a, words) ← single m fuel r words
    if role words.tail = .and then
      let rest := words.drop 2
      let (b, words) ← allOf m fuel (role rest) rest
      return (a && b, words)
    else return (a, words)

/-- A single condition, and the words from the last one read on. -/
def single (m : Machine) : Nat → Role → List String → Answer (Bool × List String)
  | 0, _, _ => throw "too many operands"
  | fuel + 1, r, words => do
    match r with
    | .not =>
      let next := role words.tail
      let (a, words) ← single m fuel next (if next = .ending then words else words.tail)
      return (!a, words)
    | .ending => return (false, words)
    | .opening =>
      let inside := words.tail
      if role inside = .closing then return (false, inside)
      let (a, words) ← anyOf m fuel (role inside) inside
      if role words.tail = .closing then return (a, words.tail)
      else throw "closing paren expected"
    | .unary op =>
      match words.tail with
      | operand :: rest => return (← unary m op operand, operand :: rest)
      | [] => throw (op ++ ": argument expected")
    | _ =>
      match words with
      | a :: op :: rest =>
        if isBinary op then
          match rest with
          | b :: rest => return (← binary m a op b, b :: rest)
          | [] => throw (op ++ ": argument expected")
        else return (a != "", words)
      | _ => return (words.head?.any (· != ""), words)

end

/-- Whether an expression holds as it stands. -/
def plain (m : Machine) (first : Role) (words : List String) : Answer Bool := do
  let (a, left) ← anyOf m (4 * words.length + 8) first words
  match left with
  | s :: _ :: _ => throw (if s == "" then "unexpected operator" else s ++ ": unexpected operator")
  | _ => return a

/-- Whether an expression holds. Of three words an operator in the middle decides; else three or
four words may be in brackets or negated. -/
def holds (m : Machine) : Nat → List String → Answer Bool
  | 0, words => plain m (role words) words
  | fuel + 1, words =>
    let compares := match words with
      | [_, op, _] => isBinary op
      | _ => false
    if words.isEmpty then return false
    else if compares then plain m .operand words
    else if words.length = 3 || words.length = 4 then
      if words.head? == some "(" && words.getLast? == some ")" then
        let inside := words.tail.dropLast
        plain m (role inside) inside
      else if words.head? == some "!" then do return !(← holds m fuel words.tail)
      else plain m (role words) words
    else plain m (role words) words

end Test

end Flowline.Shell
