import Flowline.Number.Numeral
import Flowline.Json.Token

/-!
# References in XML text

A reference stands between an ampersand and the next semicolon: one of the five predefined names,
or a number sign and the code of a character in decimal or, behind an `x`, in base sixteen.
-/

namespace Flowline

namespace Xml

/-- Blank for XML: space, tab, line feed, carriage return. -/
def isSpace (c : Char) : Bool := c == ' ' || c == '\t' || c == '\n' || c == '\r'

/-- The characters with predefined names. -/
def namedCharacters : List (String × Char) :=
  [("lt", '<'), ("gt", '>'), ("amp", '&'), ("apos", '\''), ("quot", '"')]

/-- The number with these digits in a base; at most `limit` digits, and none counts as zero. -/
def readCode? (base limit : Nat) (value? : Char → Option Nat) (digits : List Char) : Option Nat :=
  if digits.length ≤ limit then
    digits.foldlM (fun n c => (value? c).map (base * n + ·)) 0
  else none

/-- The character with a code; the null character and halves of surrogate pairs are none. -/
def characterOf? (code : Nat) : Option Char :=
  if code = 0 then none else if code.isValidChar then some (Char.ofNat code) else none

/-- The character that the name between ampersand and semicolon stands for. -/
def resolve? : List Char → Option Char
  | '#' :: 'x' :: digits => readCode? 16 6 Json.hexValue? digits >>= characterOf?
  | '#' :: digits => readCode? 10 7 digit? digits >>= characterOf?
  | name => (namedCharacters.find? (·.1.toList == name)).map (·.2)

/-- Replace the references of a text, `none` if one is malformed or unknown. `reference` holds the
characters of a reference that is being read, the last one first. -/
def unescape? (reference : Option (List Char)) : List Char → Option (List Char)
  | [] => if reference.isNone then some [] else none
  | c :: rest =>
    match reference with
    | none => if c = '&' then unescape? (some []) rest else (unescape? none rest).map (c :: ·)
    | some name =>
      if c = ';' then do
        let d ← resolve? name.reverse
        let tail ← unescape? none rest
        return d :: tail
      else if c = '&' then none
      else unescape? (some (c :: name)) rest

end Xml

end Flowline
