import Flowline.Xml.Entity

/-!
# The markup of an XML text

`Markup.scan` cuts a text into tags, character data and the rest, which is skipped. It validates
little: names are whatever stands before a blank, the end of the text closes an end tag, and a
quote protects a closing angle bracket only in start tags. A text that cannot be cut any further
ends in `malformed`.
-/

namespace Flowline

namespace Xml

/-- A piece of an XML text. -/
inductive Markup where
  /-- A start tag, without the angle brackets. -/
  | opening (content : List Char)
  /-- A tag that opens and closes an element, without angle brackets and slash. -/
  | selfClosing (content : List Char)
  /-- An end tag: the name. -/
  | closing (name : List Char)
  /-- Character data, without the blanks around it, references unresolved. -/
  | text (raw : List Char)
  /-- A literal section. -/
  | literal (content : List Char)
  /-- A comment, a declaration, an instruction or a document type. -/
  | skipped
  /-- No markup can be read from here on. -/
  | malformed
deriving DecidableEq

namespace Markup

/-- Cut a text at the first closing angle bracket for which what stands before it is complete.
`taken` holds the characters before, the last one first. -/
def cut? (complete : List Char → Bool) (taken : List Char) :
    List Char → Option (List Char × List Char)
  | [] => none
  | c :: rest =>
    if c = '>' ∧ complete taken then some (taken.reverse, rest)
    else cut? complete (c :: taken) rest

theorem length_lt_of_cut? {complete : List Char → Bool} {taken text content rest : List Char}
    (h : cut? complete taken text = some (content, rest)) : rest.length < text.length := by
  induction text generalizing taken with
  | nil => simp [cut?] at h
  | cons c text ih =>
    rw [cut?] at h
    split at h
    · simp only [Option.some.injEq, Prod.mk.injEq] at h
      simp [h.2]
    · have := ih h
      simp only [List.length_cons]
      omega

/-- The quote that is open behind a text, if one is. -/
def openQuote (text : List Char) : Option Char :=
  text.foldl
    (fun quote c => match quote with
      | none => if c = '\'' ∨ c = '"' then some c else none
      | some q => if c = q then none else some q)
    none

/-- A start tag is complete outside quotes. -/
def tagComplete (taken : List Char) : Bool := (openQuote taken.reverse).isNone

/-- A comment is complete behind two hyphens that are not those of its beginning. -/
def commentComplete : List Char → Bool
  | '-' :: '-' :: before => 3 ≤ before.length
  | _ => false

/-- A literal section is complete behind two closing brackets. -/
def literalComplete : List Char → Bool
  | ']' :: ']' :: _ => true
  | _ => false

/-- A document type is complete when its angle brackets are balanced. -/
def docTypeComplete (taken : List Char) : Bool := taken.count '<' == taken.count '>'

/-- The text begins with a word, in any case of its ASCII letters. -/
def beginsWith (word : String) (text : List Char) : Bool :=
  (text.take word.length).map lowerAscii == word.toList.map lowerAscii

/-- The markup that begins behind an opening angle bracket and an exclamation mark, and the text
behind it. -/
def declaration? (text : List Char) : Option (Markup × List Char) :=
  match text with
  | '!' :: '[' :: _ => do
    let (content, rest) ← cut? literalComplete [] text
    if beginsWith "![CDATA[" content then
      some (literal ((content.drop 8).dropLast.dropLast), rest)
    else none
  | '!' :: '-' :: _ => do
    let (content, rest) ← cut? commentComplete [] text
    if beginsWith "!--" content then some (skipped, rest) else none
  | '!' :: c :: _ =>
    if c = 'D' ∨ c = 'd' then do
      let (content, rest) ← cut? docTypeComplete [] text
      if beginsWith "!DOCTYPE" content && !(content.drop 8).all isSpace then some (skipped, rest)
      else none
    else none
  | _ => none

theorem length_lt_of_declaration? {text rest : List Char} {m : Markup}
    (h : declaration? text = some (m, rest)) : rest.length < text.length := by
  unfold declaration? at h
  split at h
  · simp only [Option.bind_eq_bind, Option.bind_eq_some_iff, Prod.exists] at h
    obtain ⟨content, rest', hcut, h⟩ := h
    split at h
    · simp only [Option.some.injEq, Prod.mk.injEq] at h
      exact h.2 ▸ length_lt_of_cut? hcut
    · simp at h
  · simp only [Option.bind_eq_bind, Option.bind_eq_some_iff, Prod.exists] at h
    obtain ⟨content, rest', hcut, h⟩ := h
    split at h
    · simp only [Option.some.injEq, Prod.mk.injEq] at h
      exact h.2 ▸ length_lt_of_cut? hcut
    · simp at h
  · split at h
    · simp only [Option.bind_eq_bind, Option.bind_eq_some_iff, Prod.exists] at h
      obtain ⟨content, rest', hcut, h⟩ := h
      split at h
      · simp only [Option.some.injEq, Prod.mk.injEq] at h
        exact h.2 ▸ length_lt_of_cut? hcut
      · simp at h
    · simp at h
  · simp at h

/-- The characters up to one, or all, and what stands behind it. -/
def splitAt (stop : Char) (text : List Char) : List Char × List Char :=
  (text.takeWhile (· != stop), (text.dropWhile (· != stop)).drop 1)

theorem length_splitAt_le (stop : Char) (text : List Char) :
    (splitAt stop text).2.length ≤ text.length := by
  have h : (text.dropWhile (· != stop)).length ≤ text.length :=
    (List.dropWhile_sublist _).length_le
  simp only [splitAt, List.length_drop]
  omega

/-- Drop characters behind a text. -/
def dropEndWhile (p : Char → Bool) (text : List Char) : List Char :=
  (text.reverse.dropWhile p).reverse

/-- The name in an end tag, which blanks may follow. -/
def closingName (content : List Char) : List Char :=
  if content.all isSpace then content else dropEndWhile isSpace content

/-- An instruction, behind its first question mark, is not empty and ends in another one. -/
def instructionComplete (content : List Char) : Bool :=
  2 ≤ content.length && content.getLast? == some '?'

/-- A start tag, which is also an end tag if a slash is its last character. -/
def ofTag (content : List Char) : Markup :=
  if content.getLast? = some '/' then selfClosing content.dropLast else opening content

/-- Cut a text into its pieces. `inside` tells that an opening angle bracket was just read. -/
def scan (inside : Bool) (source : List Char) : List Markup :=
  match inside, source with
  | _, [] => []
  | false, c :: rest =>
    if isSpace c then scan false rest
    else if c = '<' then scan true rest
    else
      have := length_splitAt_le '<' rest
      text (dropEndWhile isSpace (c :: (splitAt '<' rest).1)) :: scan true (splitAt '<' rest).2
  | true, '!' :: rest =>
    match h : declaration? ('!' :: rest) with
    | some (m, after) =>
      have := length_lt_of_declaration? h
      m :: scan false after
    | none => [malformed]
  | true, '/' :: rest =>
    have := length_splitAt_le '>' rest
    closing (closingName (splitAt '>' rest).1) :: scan false (splitAt '>' rest).2
  | true, '?' :: rest =>
    have := length_splitAt_le '>' rest
    if instructionComplete (splitAt '>' rest).1 then skipped :: scan false (splitAt '>' rest).2
    else [malformed]
  | true, c :: rest =>
    match h : cut? tagComplete [] (c :: rest) with
    | some (content, after) =>
      have := length_lt_of_cut? h
      ofTag content :: scan false after
    | none => [malformed]
termination_by source.length
decreasing_by all_goals simp_all; try omega

end Markup

end Xml

end Flowline
