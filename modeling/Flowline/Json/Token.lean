import Flowline.Json.Numeral

/-!
# Tokens of the text of a value

`Token.scan` cuts a text into tokens, one character at a time. Between tokens only space, tab, line
feed and carriage return are skipped, and a string may hold no raw control character. Where no
token can be read any further, the last one is `broken`; so whoever takes the tokens in order meets
the fault exactly at its place.
-/

namespace Flowline

namespace Json

/-- A token: a mark of structure, or a value that is no container. -/
inductive Token where
  | openArr
  | closeArr
  | openObj
  | closeObj
  | comma
  | colon
  | scalar (value : Json)
  /-- A string with half of a surrogate pair. -/
  | halfText
  /-- A number that is too large. -/
  | hugeNumber
  /-- No token can be read from here on. -/
  | broken

/-- The structure mark that a character stands for. -/
def Token.mark? (c : Char) : Option Token :=
  match c with
  | '[' => some .openArr
  | ']' => some .closeArr
  | '\x7b' => some .openObj
  | '\x7d' => some .closeObj
  | ',' => some .comma
  | ':' => some .colon
  | _ => none

/-- The part of a numeral that was read last. -/
inductive NumeralPart where
  | sign
  /-- A zero in front, which stands alone. -/
  | zero
  | whole
  | point
  | fraction
  | exponentMark
  | exponentSign
  | exponent
deriving DecidableEq

namespace NumeralPart

/-- The part that a character belongs to, if it goes on with the numeral. -/
def next? (part : NumeralPart) (c : Char) : Option NumeralPart :=
  match part with
  | sign => if c = '0' then some zero else if isDigit c then some whole else none
  | zero =>
    if c = '.' then some point else if c = 'e' ∨ c = 'E' then some exponentMark else none
  | whole =>
    if isDigit c then some whole
    else if c = '.' then some point else if c = 'e' ∨ c = 'E' then some exponentMark else none
  | point => if isDigit c then some fraction else none
  | fraction =>
    if isDigit c then some fraction else if c = 'e' ∨ c = 'E' then some exponentMark else none
  | exponentMark =>
    if isDigit c then some exponent else if c = '+' ∨ c = '-' then some exponentSign else none
  | exponentSign | exponent => if isDigit c then some exponent else none

/-- The numeral may end with the part. -/
def isLast : NumeralPart → Bool
  | zero | whole | fraction | exponent => true
  | _ => false

end NumeralPart

/-- What the scanner is in the middle of. Collected characters are in reverse; a string that lost
half of a surrogate pair has `whole` off. -/
inductive ScanMode where
  /-- Between tokens. -/
  | between
  /-- In a name of which some characters are to come. -/
  | name (rest : List Char) (value : Json)
  | numeral (part : NumeralPart) (taken : List Char)
  | text (taken : List Char) (whole : Bool)
  /-- In a string, behind a backslash. -/
  | escape (taken : List Char) (whole : Bool)
  /-- In an escape with four digits, of which some are read; the high half of a pair may precede. -/
  | code (taken : List Char) (whole : Bool) (high : Option Nat) (digits value : Nat)
  /-- Behind the high half of a pair: a backslash, then a `u`, should follow. -/
  | pair (taken : List Char) (high : Nat) (afterBackslash : Bool)
  /-- No token can be read any further. -/
  | stuck

/-- The scanner: its mode and the tokens so far, the last one first. -/
structure Scanner where
  mode : ScanMode := .between
  tokens : List Token := []

/-- Blank between two tokens. -/
def isSeparator (c : Char) : Bool := c == ' ' || c == '\t' || c == '\n' || c == '\r'

/-- The character that a one-letter escape stands for. -/
def escaped? (c : Char) : Option Char :=
  match c with
  | '"' => some '"'
  | '\\' => some '\\'
  | '/' => some '/'
  | 'b' => some (Char.ofNat 8)
  | 'f' => some (Char.ofNat 12)
  | 'n' => some '\n'
  | 'r' => some '\r'
  | 't' => some '\t'
  | _ => none

/-- The value of a digit of base sixteen in either case. -/
def hexValue? (c : Char) : Option Nat :=
  match digit? c with
  | some n => some n
  | none =>
    if 'a' ≤ c ∧ c ≤ 'f' then some (c.toNat - 'a'.toNat + 10)
    else if 'A' ≤ c ∧ c ≤ 'F' then some (c.toNat - 'A'.toNat + 10)
    else none

/-- The token that a complete numeral is. -/
def Token.ofNumeral (cs : List Char) : Token :=
  match readNumber? cs with
  | some value => .scalar value
  | none => .hugeNumber

/-- The token that a complete string is. -/
def Token.ofText (taken : List Char) (whole : Bool) : Token :=
  if whole then .scalar (str (String.ofList taken.reverse)) else .halfText

namespace ScanMode

/-- Read a character between two tokens: the mode behind it, and its token if it is one. -/
def start (c : Char) : ScanMode × Option Token :=
  match Token.mark? c with
  | some mark => (between, some mark)
  | none =>
    if isSeparator c then (between, none)
    else
      match c with
      | '"' => (text [] true, none)
      | 't' => (name "rue".toList (.bool true), none)
      | 'f' => (name "alse".toList (.bool false), none)
      | 'n' => (name "ull".toList .null, none)
      | '-' => (numeral .sign [c], none)
      | '0' => (numeral .zero [c], none)
      | c => (if isDigit c then numeral .whole [c] else stuck, none)

/-- Read the character behind a backslash in a string. -/
def behindBackslash (taken : List Char) (whole : Bool) (c : Char) : ScanMode :=
  if c = 'u' then code taken whole none 0 0
  else
    match escaped? c with
    | some e => text (e :: taken) whole
    | none => stuck

/-- Read a character in a string. -/
def inText (taken : List Char) (whole : Bool) (c : Char) : ScanMode :=
  if c = '\\' then escape taken whole
  else if c.toNat < 32 then stuck
  else text (c :: taken) whole

/-- Go on behind the fourth digit of an escape. -/
def behindCode (taken : List Char) (whole : Bool) (high : Option Nat) (value : Nat) : ScanMode :=
  let isHigh := 0xD800 ≤ value ∧ value < 0xDC00
  let isLow := 0xDC00 ≤ value ∧ value < 0xE000
  match high with
  | some h =>
    if isLow then
      text (Char.ofNat (0x10000 + (h - 0xD800) * 0x400 + (value - 0xDC00)) :: taken) whole
    else text taken false
  | none =>
    if !whole ∨ isLow then text taken false
    else if isHigh then pair taken value false
    else text (Char.ofNat value :: taken) whole

/-- Read a character: the mode behind it, and the tokens that it completes, in order. -/
def step (mode : ScanMode) (c : Char) : ScanMode × List Token :=
  match mode with
  | between => let (next, token) := start c; (next, token.toList)
  | name [] _ => (stuck, [])
  | name [d] value => if c = d then (between, [.scalar value]) else (stuck, [])
  | name (d :: rest) value => (if c = d then name rest value else stuck, [])
  | numeral part taken =>
    match part.next? c with
    | some part => (numeral part (c :: taken), [])
    | none =>
      if part.isLast && !(part == .zero && isDigit c) then
        let (next, token) := start c
        (next, .ofNumeral taken.reverse :: token.toList)
      else (stuck, [])
  | text taken whole =>
    if c = '"' then (between, [.ofText taken whole]) else (inText taken whole c, [])
  | escape taken whole => (behindBackslash taken whole c, [])
  | code taken whole high digits value =>
    match hexValue? c with
    | none => (stuck, [])
    | some d =>
      let value := 16 * value + d
      (if digits < 3 then code taken whole high (digits + 1) value
        else behindCode taken whole high value, [])
  | pair taken high false =>
    if c = '\\' then (pair taken high true, [])
    else if c = '"' then (between, [.ofText taken false])
    else (inText taken false c, [])
  | pair taken high true =>
    (if c = 'u' then code taken true (some high) 0 0 else behindBackslash taken false c, [])
  | stuck => (stuck, [])

/-- The last tokens of a text that ends here. -/
def finish : ScanMode → List Token
  | between => []
  | numeral part taken => if part.isLast then [.ofNumeral taken.reverse] else [.broken]
  | _ => [.broken]

end ScanMode

/-- Read one character. -/
def Scanner.step (s : Scanner) (c : Char) : Scanner :=
  let (mode, tokens) := s.mode.step c
  ⟨mode, tokens.reverse ++ s.tokens⟩

/-- The tokens of a text. -/
def Token.scan (cs : List Char) : List Token :=
  let s := cs.foldl Scanner.step {}
  s.tokens.reverse ++ s.mode.finish

end Json

end Flowline
