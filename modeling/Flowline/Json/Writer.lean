import Flowline.Json.Basic

/-!
# Compact text of a value

No blanks between the tokens, members in their order, and in strings only the quote, the backslash
and the control characters below the space are escaped.
-/

namespace Flowline

namespace Json

/-- A digit of base sixteen, in lower case. -/
def hexDigit (n : Nat) : Char := (Nat.toDigits 16 (n % 16)).headD '0'

/-- A character as it stands in a written string. -/
def escapeChar (c : Char) : List Char :=
  if c = '"' then ['\\', '"']
  else if c = '\\' then ['\\', '\\']
  else if c = '\n' then ['\\', 'n']
  else if c = '\r' then ['\\', 'r']
  else if c = '\t' then ['\\', 't']
  else if c = Char.ofNat 8 then ['\\', 'b']
  else if c = Char.ofNat 12 then ['\\', 'f']
  else if c.toNat < 32 then ['\\', 'u', '0', '0', hexDigit (c.toNat / 16), hexDigit c.toNat]
  else [c]

/-- A string in quotes. -/
def quote (s : String) : String :=
  String.ofList ('"' :: s.toList.flatMap escapeChar ++ ['"'])

/-- A whole number in decimal. -/
def intText (n : Int) : String :=
  let digits := Decimal.digitChars n.natAbs
  String.ofList (if n < 0 then '-' :: digits else digits)

/-- The parts joined by commas. -/
def commaJoin (parts : List String) : String := String.intercalate "," parts

mutual

/-- The compact text of a value. -/
def write : Json → String
  | null => "null"
  | bool b => if b then "true" else "false"
  | int n => intText n
  | float x => x.text
  | str s => quote s
  | arr elements => "[" ++ commaJoin (writeElements elements) ++ "]"
  | obj members => "\x7b" ++ commaJoin (writeMembers members) ++ "\x7d"

/-- The texts of the elements. -/
def writeElements : List Json → List String
  | [] => []
  | v :: rest => write v :: writeElements rest

/-- The texts of the members. -/
def writeMembers : List (String × Json) → List String
  | [] => []
  | (k, v) :: rest => (quote k ++ ":" ++ write v) :: writeMembers rest

end

end Json

end Flowline
