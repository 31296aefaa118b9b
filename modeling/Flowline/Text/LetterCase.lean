import Flowline.Text.CaseTable

/-!
# Letter case

`lowerCase` puts a text in lower case by the simple case mappings of Unicode, with the two rules
that go beyond single characters: the dotted capital I becomes two characters, and a capital sigma
at the end of a word takes its final form.
-/

namespace Flowline

/-- The lower case of a character on its own. -/
def lowerChar (c : Char) : Char :=
  match caseRuns.find? (·.holds c.toNat) with
  | some r => Char.ofNat (r.lower c.toNat)
  | none => c

/-- The next character that is not passed over is cased. -/
def continuesWord (cs : List Char) : Bool :=
  match cs.dropWhile isCaseIgnorable with
  | c :: _ => isCased c
  | [] => false

/-- Lower case of characters, those before them being given in reverse. -/
def lowerChars (before : List Char) : List Char → List Char
  | [] => []
  | c :: rest =>
    let tail := lowerChars (c :: before) rest
    if c = '\u0130' then 'i' :: '\u0307' :: tail
    else if c = '\u03a3' then
      (if continuesWord before && !continuesWord rest then '\u03c2' else '\u03c3') :: tail
    else lowerChar c :: tail

/-- The text in lower case. -/
def lowerCase (s : String) : String := String.ofList (lowerChars [] s.toList)

/-- The upper case of a character when that consists of ASCII letters alone. -/
def upperLetters (c : Char) : List Char :=
  match c with
  | '\u00df' => ['S', 'S']
  | '\u0131' => ['I']
  | '\u017f' => ['S']
  | '\ufb00' => ['F', 'F']
  | '\ufb01' => ['F', 'I']
  | '\ufb02' => ['F', 'L']
  | '\ufb03' => ['F', 'F', 'I']
  | '\ufb04' => ['F', 'F', 'L']
  | '\ufb05' => ['S', 'T']
  | '\ufb06' => ['S', 'T']
  | c => if 'a' ≤ c ∧ c ≤ 'z' then [Char.ofNat (c.toNat - 32)] else [c]

/-- The text with the letters whose upper case is ASCII in upper case. It equals an ASCII word
exactly when the text in upper case does. -/
def upperAscii (s : String) : String := String.ofList (s.toList.flatMap upperLetters)

end Flowline
