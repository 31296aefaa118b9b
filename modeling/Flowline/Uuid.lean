import Flowline.Json.Writer
import Flowline.Json.Token

/-!
# Unique identifiers

Identifiers of 128 bits, written as 32 digits of base sixteen in groups. The ones that are made
here are numbered, so that no two are alike.
-/

namespace Flowline

/-- A unique identifier. -/
structure Uuid where
  value : Nat
deriving DecidableEq, Inhabited

namespace Uuid

/-- The identifier that is all zeros. -/
def nil : Uuid := ⟨0⟩

/-- The identifier made for a number. -/
def ofSerial (n : Nat) : Uuid := ⟨0x00000000000040008000000000000000 + n⟩

/-- A number as so many digits of base sixteen. -/
def hexDigits : Nat → Nat → List Char
  | 0, _ => []
  | width + 1, n => hexDigits width (n / 16) ++ [Json.hexDigit n]

/-- The written form: groups of 8, 4, 4, 4 and 12 digits. -/
def text (u : Uuid) : String :=
  let digits := hexDigits 32 u.value
  let group (start length : Nat) : String := String.ofList ((digits.drop start).take length)
  String.intercalate "-" [group 0 8, group 8 4, group 12 4, group 16 4, group 20 12]

/-- The identifier with these digits. -/
def ofDigits? (digits : List Char) : Option Uuid :=
  if digits.length = 32 then
    (digits.foldlM (fun n c => (Json.hexValue? c).map (16 * n + ·)) 0).map Uuid.mk
  else none

/-- The identifier written in groups. -/
def ofGroups? (cs : List Char) : Option Uuid :=
  if cs.length = 36 ∧ [8, 13, 18, 23].all (fun i => cs[i]? == some '-') then
    ofDigits? (cs.take 8 ++ (cs.drop 9).take 4 ++ (cs.drop 14).take 4 ++ (cs.drop 19).take 4 ++
      cs.drop 24)
  else none

/-- Read an identifier: plain digits, groups, groups in braces, or groups behind the name of the
notation. -/
def read? (s : String) : Option Uuid :=
  let cs := s.toList
  let stem := "urn:uuid:".toList
  if cs.length = 32 then ofDigits? cs
  else if cs.length = 38 ∧ cs.head? = some '\x7b' ∧ cs.getLast? = some '\x7d' then
    ofGroups? cs.tail.dropLast
  else if stem.isPrefixOf cs then ofGroups? (cs.drop stem.length)
  else ofGroups? cs

end Uuid

end Flowline
