/-!
# Bytes as text

`decodeBytes` reads bytes as UTF-8. Where they are none, each longest part that could have begun a
character becomes one replacement character.
-/

namespace Flowline

/-- How a multi-byte character begins: how many bytes follow, the bits that the first byte
contributes, and the bounds of the second byte. -/
structure LeadByte where
  following : Nat
  bits : Nat
  least : UInt8
  greatest : UInt8

/-- What a first byte above the ASCII range begins, if anything. -/
def leadByte? (b : UInt8) : Option LeadByte :=
  if 0xC2 ≤ b ∧ b ≤ 0xDF then some ⟨1, b.toNat - 0xC0, 0x80, 0xBF⟩
  else if b = 0xE0 then some ⟨2, 0, 0xA0, 0xBF⟩
  else if b = 0xED then some ⟨2, 13, 0x80, 0x9F⟩
  else if 0xE1 ≤ b ∧ b ≤ 0xEF then some ⟨2, b.toNat - 0xE0, 0x80, 0xBF⟩
  else if b = 0xF0 then some ⟨3, 0, 0x90, 0xBF⟩
  else if b = 0xF4 then some ⟨3, 4, 0x80, 0x8F⟩
  else if 0xF1 ≤ b ∧ b ≤ 0xF3 then some ⟨3, b.toNat - 0xF0, 0x80, 0xBF⟩
  else none

/-- Read the bytes that follow a first one: the code point if all are there, and the rest. -/
def followBytes (bits : Nat) (least greatest : UInt8) : Nat → List UInt8 → Option Nat × List UInt8
  | 0, rest => (some bits, rest)
  | _ + 1, [] => (none, [])
  | n + 1, b :: rest =>
    if least ≤ b ∧ b ≤ greatest then followBytes (bits * 64 + b.toNat % 64) 0x80 0xBF n rest
    else (none, b :: rest)

theorem length_followBytes_le (bits : Nat) (least greatest : UInt8) (n : Nat) (bytes : List UInt8) :
    (followBytes bits least greatest n bytes).2.length ≤ bytes.length := by
  fun_induction followBytes bits least greatest n bytes with
  | case1 => simp
  | case2 => simp
  | case3 _ _ _ _ _ _ _ ih => simp only [List.length_cons]; omega
  | case4 => simp

/-- The character that stands for what is no text. -/
def replacementChar : Char := Char.ofNat 0xFFFD

/-- Read bytes as text. -/
def decodeBytes : List UInt8 → List Char
  | [] => []
  | b :: rest =>
    if b < 0x80 then Char.ofNat b.toNat :: decodeBytes rest
    else
      match leadByte? b with
      | none => replacementChar :: decodeBytes rest
      | some lead =>
        let read := followBytes lead.bits lead.least lead.greatest lead.following rest
        have := length_followBytes_le lead.bits lead.least lead.greatest lead.following rest
        (read.1.elim replacementChar Char.ofNat) :: decodeBytes read.2
termination_by bytes => bytes.length
decreasing_by all_goals (simp only [List.length_cons]; omega)

end Flowline
