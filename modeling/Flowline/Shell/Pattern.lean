/-!
# Patterns

A pattern of the shell: a star stands for any text, a question mark for any character, and
brackets for one of a set of characters. Quoted characters stand for themselves, as does what
follows a backslash.
-/

namespace Flowline.Shell

/-- A kind of character, as brackets name it. -/
def ofKind (kind : String) (c : Char) : Bool :=
  let visible := 33 ≤ c.toNat && c.toNat ≤ 126
  match kind with
  | "alpha" => c.isAlpha
  | "digit" => c.isDigit
  | "alnum" => c.isAlphanum
  | "upper" => c.isUpper
  | "lower" => c.isLower
  | "space" => c == ' ' || (9 ≤ c.toNat && c.toNat ≤ 13)
  | "blank" => c == ' ' || c == '\t'
  | "punct" => visible && !c.isAlphanum
  | "graph" => visible
  | "print" => visible || c == ' '
  | "cntrl" => c.toNat < 32 || c.toNat == 127
  | "xdigit" => c.isDigit || ('a' ≤ c && c ≤ 'f') || ('A' ≤ c && c ≤ 'F')
  | _ => false

/-- What stands between brackets. -/
inductive SetItem where
  | range (first last : Char)
  | kind (name : String)
deriving DecidableEq

/-- The character is one of those that the items name. -/
def inSet (items : List SetItem) (c : Char) : Bool :=
  items.any fun
    | .range first last => first ≤ c && c ≤ last
    | .kind name => ofKind name c

/-- A part of a pattern. -/
inductive PatternPart where
  | any
  | one
  | char (c : Char)
  /-- A character of a set or, if `negated`, outside of it. -/
  | among (negated : Bool) (items : List SetItem)
deriving DecidableEq

/-- A character of a word, and whether it was quoted. -/
abbrev Mark := Char × Bool

namespace PatternPart

/-- The name of a kind in front, which ends in a colon and a bracket. -/
def kindName? (marks : List Mark) : Option (String × List Mark) :=
  let name := marks.takeWhile fun m => m.1.isAlpha
  match marks.drop name.length with
  | (':', _) :: (']', _) :: rest => some (String.ofList (name.map (·.1)), rest)
  | _ => none

/-- The items of a set up to its closing bracket, and what follows it; a bracket that comes first
is an item. -/
def items? (first : Bool) : Nat → List Mark → Option (List SetItem × List Mark)
  | 0, _ => none
  | _, [] => none
  | fuel + 1, (c, quoted) :: rest =>
    if c == ']' && !quoted && !first then some ([], rest)
    else
      let kind := match c, quoted, rest with
        | '[', false, (':', _) :: inside => kindName? inside
        | _, _, _ => none
      match kind with
      | some (name, rest) => do
        let (items, rest) ← items? false fuel rest
        return (.kind name :: items, rest)
      | none =>
        let (c, rest) := match c, quoted, rest with
          | '\\', false, (d, _) :: rest => (d, rest)
          | _, _, _ => (c, rest)
        match rest with
        | ('-', false) :: (d, q) :: more =>
          if d == ']' && !q then do
            let (items, rest) ← items? false fuel rest
            return (.range c c :: items, rest)
          else
            let (d, more) := match d, q, more with
              | '\\', false, (e, _) :: more => (e, more)
              | _, _, _ => (d, more)
            do
              let (items, rest) ← items? false fuel more
              return (.range c d :: items, rest)
        | rest => do
          let (items, rest) ← items? false fuel rest
          return (.range c c :: items, rest)

/-- A set of characters behind its opening bracket, and what follows it. -/
def set? (marks : List Mark) : Option (PatternPart × List Mark) :=
  let (negated, marks) := match marks with
    | ('!', false) :: rest => (true, rest)
    | ms => (false, ms)
  (items? true (marks.length + 1) marks).map fun r => (.among negated r.1, r.2)

/-- The parts of a pattern. -/
def ofMarks : Nat → List Mark → List PatternPart
  | 0, _ => []
  | _, [] => []
  | fuel + 1, (c, true) :: rest => .char c :: ofMarks fuel rest
  | fuel + 1, ('\\', false) :: (c, _) :: rest => .char c :: ofMarks fuel rest
  | fuel + 1, (c, false) :: rest =>
    if c == '*' then .any :: ofMarks fuel rest
    else if c == '?' then .one :: ofMarks fuel rest
    else if c == '[' then
      match set? rest with
      | some (part, rest) => part :: ofMarks fuel rest
      | none => .char c :: ofMarks fuel rest
    else .char c :: ofMarks fuel rest

end PatternPart

/-- A text and all that is left of it without some characters in front. -/
def suffixes : List Char → List (List Char)
  | [] => [[]]
  | c :: rest => (c :: rest) :: suffixes rest

/-- The pattern stands for the text. -/
def matchesPattern : List PatternPart → List Char → Bool
  | [], text => text.isEmpty
  | [.any], _ => true
  | .any :: parts, text => (suffixes text).any (matchesPattern parts)
  | .one :: parts, text =>
    match text with
    | _ :: rest => matchesPattern parts rest
    | [] => false
  | .char c :: parts, text =>
    match text with
    | d :: rest => c == d && matchesPattern parts rest
    | [] => false
  | .among negated items :: parts, text =>
    match text with
    | d :: rest => inSet items d != negated && matchesPattern parts rest
    | [] => false

/-- The pattern that marked characters are. -/
def patternOf (marks : List Mark) : List PatternPart := PatternPart.ofMarks marks.length marks

/-- The marked characters hold a character that a pattern does not take for itself. -/
def isPattern (marks : List Mark) : Bool :=
  (patternOf marks).any fun
    | .char _ => false
    | _ => true

/-- The text of marked characters that turned out to be no pattern. -/
def plainText (marks : List Mark) : String := String.ofList (marks.map (·.1))

/-- Drop the shortest or the longest beginning that a pattern stands for. -/
def dropFront (longest : Bool) (pattern : List PatternPart) (text : List Char) : List Char :=
  let lengths := List.range (text.length + 1)
  let lengths := if longest then lengths.reverse else lengths
  match lengths.find? fun n => matchesPattern pattern (text.take n) with
  | some n => text.drop n
  | none => text

/-- Drop the shortest or the longest end that a pattern stands for. -/
def dropBack (longest : Bool) (pattern : List PatternPart) (text : List Char) : List Char :=
  let lengths := List.range (text.length + 1)
  let lengths := if longest then lengths else lengths.reverse
  match lengths.find? fun n => matchesPattern pattern (text.drop n) with
  | some n => text.take n
  | none => text

end Flowline.Shell
