import Flowline.Json.Writer
import Flowline.Number.Numeral
import Flowline.Shell.Syntax

/-!
# Arithmetic

Arithmetic expressions are those of signed 64-bit numbers. A variable without a value counts as
zero, and an assignment changes the variables.
-/

namespace Flowline.Shell

/-- The number within 64 bits that agrees with a number in its last 64 bits. -/
def wrap64 (n : Int) : Int := Int.bmod n (Nat.pow 2 64)

/-- The number within 64 bits that is nearest to a number. -/
def clamp64 (n : Int) : Int := max (-Int.pow 2 63) (min n (Int.pow 2 63 - 1))

/-- The value of a digit up to base 16. -/
def hexValue? (c : Char) : Option Nat :=
  match digit? c with
  | some d => some d
  | none =>
    let l := lowerAscii c
    if 'a' ≤ l ∧ l ≤ 'f' then some (l.toNat - 'a'.toNat + 10) else none

/-- The digits of a base in front, and what follows. -/
def spanBase (base : Nat) (cs : List Char) : List Char × List Char :=
  let inBase (c : Char) : Bool := (hexValue? c).any (· < base)
  (cs.takeWhile inBase, cs.dropWhile inBase)

/-- The number that digits denote in a base. -/
def valueIn (base : Nat) (digits : List Char) : Nat :=
  digits.foldl (fun n c => base * n + (hexValue? c).getD 0) 0

/-- An unsigned constant in front, which is in base 16 behind `0x`, in base 8 behind `0`, and else
in base 10, and what follows. -/
def constant? (cs : List Char) : Option (Nat × List Char) :=
  let inBase (base : Nat) (cs : List Char) : Option (Nat × List Char) :=
    let (digits, rest) := spanBase base cs
    if digits.isEmpty then none else some (valueIn base digits, rest)
  match cs with
  | '0' :: x :: d :: rest =>
    if (x == 'x' || x == 'X') && (hexValue? d).isSome then inBase 16 (d :: rest) else inBase 8 cs
  | '0' :: _ => inBase 8 cs
  | _ => inBase 10 cs

/-- A constant with an optional sign, behind blanks, and what follows. -/
def signed? (cs : List Char) : Option (Int × List Char) :=
  match cs.dropWhile Char.isWhitespace with
  | '-' :: rest => (constant? rest).map fun r => (clamp64 (-(r.1 : Int)), r.2)
  | '+' :: rest => (constant? rest).map fun r => (clamp64 r.1, r.2)
  | cs => (constant? cs).map fun r => (clamp64 r.1, r.2)

/-- The number that a whole text denotes. -/
def wholeNumber? (s : String) : Option Int := do
  let (n, rest) ← signed? s.toList
  if rest.all Char.isWhitespace then some n else none

/-- A decimal number of 64 bits, with an optional sign and blanks around it. -/
def decimal? (s : String) : Option Int := do
  let cs := s.toList.dropWhile Char.isWhitespace
  let (negative, cs) := match cs with
    | '-' :: rest => (true, rest)
    | '+' :: rest => (false, rest)
    | cs => (false, cs)
  let (digits, rest) := spanDigits cs
  if digits.isEmpty || !rest.all Char.isWhitespace then none
  else
    let n : Int := digitsValue 0 digits
    let n := if negative then -n else n
    if clamp64 n = n then some n else none

/-- An expression. -/
inductive Expression where
  | number (n : Int)
  | valueOf (name : String)
  | unary (operator : String) (e : Expression)
  | binary (operator : String) (a b : Expression)
  | choose (test a b : Expression)
  /-- An assignment, through an operator unless that is empty. -/
  | assign (name operator : String) (e : Expression)

/-- Why a text has no value. -/
inductive ArithmeticFault where
  | expecting (what : String)
  | divisionByZero
  /-- A variable has a value that is no number. -/
  | noNumber (value : String)

/-- The fault of a text in words. -/
def ArithmeticFault.message (fault : ArithmeticFault) (text : String) : String :=
  match fault with
  | expecting what => "arithmetic expression: expecting " ++ what ++ ": \"" ++ text ++ "\""
  | divisionByZero => "arithmetic expression: division by zero: \"" ++ text ++ "\""
  | noNumber value => "Illegal number: " ++ value

namespace Expression

/-- A token of an expression. -/
inductive Lexeme where
  | number (n : Int)
  | name (s : String)
  | operator (s : String)
  | unknown
deriving DecidableEq

/-- The operators, a longer one before those that it begins with. -/
def operators : List String :=
  ["<<=", ">>=", "&&", "||", "<<", ">>", "<=", ">=", "==", "!=", "+=", "-=", "*=", "/=", "%=",
    "&=", "|=", "^=", "+", "-", "*", "/", "%", "<", ">", "=", "!", "~", "&", "|", "^", "?", ":",
    "(", ")"]

/-- The tokens of an expression. -/
def scan : Nat → List Char → List Lexeme
  | 0, _ => []
  | _, [] => []
  | fuel + 1, c :: rest =>
    if c.isWhitespace then scan fuel rest
    else if beginsName c then
      .name (String.ofList (c :: rest.takeWhile inName)) :: scan fuel (rest.dropWhile inName)
    else
      match constant? (c :: rest) with
      | some (n, rest) => .number (clamp64 n) :: scan fuel rest
      | none =>
        match operators.find? (·.toList.isPrefixOf (c :: rest)) with
        | some op => .operator op :: scan fuel ((c :: rest).drop op.length)
        | none => [.unknown]

/-- How tightly a binary operator binds. -/
def level? : String → Option Nat
  | "||" => some 1
  | "&&" => some 2
  | "|" => some 3
  | "^" => some 4
  | "&" => some 5
  | "==" | "!=" => some 6
  | "<" | "<=" | ">" | ">=" => some 7
  | "<<" | ">>" => some 8
  | "+" | "-" => some 9
  | "*" | "/" | "%" => some 10
  | _ => none

/-- The operator that an assignment goes through. -/
def assignment? (s : String) : Option String :=
  if s == "=" then some ""
  else if ["<<=", ">>=", "+=", "-=", "*=", "/=", "%=", "&=", "|=", "^="].contains s then
    some (String.ofList s.toList.dropLast)
  else none

/-- A part of an expression, and the tokens that follow. -/
abbrev Parsed := Except ArithmeticFault (Expression × List Lexeme)

mutual

/-- A whole expression. -/
def whole : Nat → List Lexeme → Parsed
  | 0, _ => throw (.expecting "primary")
  | fuel + 1, tokens =>
    match tokens with
    | .name s :: .operator op :: rest =>
      match assignment? op with
      | some through => do
        let (e, rest) ← whole fuel rest
        return (.assign s through e, rest)
      | none => chosen fuel tokens
    | _ => chosen fuel tokens

/-- A choice, or an expression of binary operators. -/
def chosen : Nat → List Lexeme → Parsed
  | 0, _ => throw (.expecting "primary")
  | fuel + 1, tokens => do
    let (test, rest) ← binaries fuel 1 tokens
    match rest with
    | .operator "?" :: rest =>
      let (a, rest) ← whole fuel rest
      match rest with
      | .operator ":" :: rest =>
        let (b, rest) ← chosen fuel rest
        return (.choose test a b, rest)
      | _ => throw (.expecting "':'")
    | rest => return (test, rest)

/-- Operands joined by operators that bind at least as tightly as a level says. -/
def binaries : Nat → Nat → List Lexeme → Parsed
  | 0, _, _ => throw (.expecting "primary")
  | fuel + 1, least, tokens => do
    let (first, rest) ← operand fuel tokens
    extend fuel least first rest

/-- Extend a left operand as far as the level allows. -/
def extend : Nat → Nat → Expression → List Lexeme → Parsed
  | 0, _, _, _ => throw (.expecting "primary")
  | fuel + 1, least, left, tokens =>
    match tokens with
    | .operator op :: rest =>
      match level? op with
      | some level =>
        if least ≤ level then do
          let (right, rest) ← binaries fuel (level + 1) rest
          extend fuel least (.binary op left right) rest
        else return (left, tokens)
      | none => return (left, tokens)
    | _ => return (left, tokens)

/-- An operand. -/
def operand : Nat → List Lexeme → Parsed
  | 0, _ => throw (.expecting "primary")
  | fuel + 1, tokens =>
    match tokens with
    | .number n :: rest => return (.number n, rest)
    | .name s :: rest => return (.valueOf s, rest)
    | .operator "(" :: rest => do
      let (e, rest) ← whole fuel rest
      match rest with
      | .operator ")" :: rest => return (e, rest)
      | _ => throw (.expecting "')'")
    | .operator op :: rest =>
      if ["-", "+", "!", "~"].contains op then do
        let (e, rest) ← operand fuel rest
        return (.unary op e, rest)
      else throw (.expecting "primary")
    | _ => throw (.expecting "primary")

end

/-- Read an expression. -/
def read (text : String) : Except ArithmeticFault Expression := do
  let tokens := scan (text.length + 1) text.toList
  let (e, rest) ← whole (14 * tokens.length + 14) tokens
  if rest.isEmpty then return e else throw (.expecting "EOF")

/-- A truth value as a number. -/
def ofBool (b : Bool) : Int := if b then 1 else 0

/-- A number as the word that has its bits. -/
def bits (n : Int) : UInt64 := UInt64.ofInt n

/-- A word as a signed number. -/
def ofBits (w : UInt64) : Int := w.toInt64.toInt

/-- The value of a binary operator. -/
def operate (op : String) (a b : Int) : Except ArithmeticFault Int :=
  match op with
  | "+" => return wrap64 (a + b)
  | "-" => return wrap64 (a - b)
  | "*" => return wrap64 (a * b)
  | "/" => if b = 0 then throw .divisionByZero else return wrap64 (Int.tdiv a b)
  | "%" => if b = 0 then throw .divisionByZero else return wrap64 (Int.tmod a b)
  | "<<" => return ofBits (bits a <<< bits b)
  | ">>" => return (Int64.ofInt a >>> Int64.ofInt b).toInt
  | "&" => return ofBits (bits a &&& bits b)
  | "|" => return ofBits (bits a ||| bits b)
  | "^" => return ofBits (bits a ^^^ bits b)
  | "==" => return ofBool (a == b)
  | "!=" => return ofBool (a != b)
  | "<" => return ofBool (a < b)
  | "<=" => return ofBool (a ≤ b)
  | ">" => return ofBool (b < a)
  | _ => return ofBool (b ≤ a)

/-- What finds the value of a variable, and the values that were assigned since. -/
structure Variables where
  find : String → Option String
  assigned : Entries String := []

/-- The value of a variable. -/
def Variables.number (v : Variables) (name : String) : Except ArithmeticFault Int :=
  match (v.assigned.get? name).or (v.find name) with
  | none => return 0
  | some s =>
    if s.toList.all Char.isWhitespace then return 0
    else
      match wholeNumber? s with
      | some n => return n
      | none => throw (.noNumber s)

/-- The value of an expression, and the variables after it. -/
def eval (e : Expression) (v : Variables) : Except ArithmeticFault (Int × Variables) :=
  match e with
  | number n => return (n, v)
  | valueOf name => return (← v.number name, v)
  | unary op e => do
    let (n, v) ← e.eval v
    match op with
    | "-" => return (wrap64 (-n), v)
    | "!" => return (ofBool (n == 0), v)
    | "~" => return (-n - 1, v)
    | _ => return (n, v)
  | binary "&&" a b => do
    let (n, v) ← a.eval v
    if n = 0 then return (0, v)
    let (m, v) ← b.eval v
    return (ofBool (m != 0), v)
  | binary "||" a b => do
    let (n, v) ← a.eval v
    if n ≠ 0 then return (1, v)
    let (m, v) ← b.eval v
    return (ofBool (m != 0), v)
  | binary op a b => do
    let (n, v) ← a.eval v
    let (m, v) ← b.eval v
    return (← operate op n m, v)
  | choose test a b => do
    let (n, v) ← test.eval v
    if n ≠ 0 then a.eval v else b.eval v
  | assign name op e => do
    let (m, v) ← e.eval v
    let value ← if op == "" then pure m else do operate op (← v.number name) m
    return (value, { v with assigned := v.assigned.put name (Json.intText value) })

end Expression

end Flowline.Shell
