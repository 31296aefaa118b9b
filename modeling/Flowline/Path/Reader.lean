import Flowline.Path.Basic
import Flowline.Number.Numeral
import Flowline.Text.Blank

/-!
# Reading path expressions

The notation is `a.b[2].c[]`: names separated by points, and brackets around an index, a quoted
name, or a star or nothing for the wildcard. Blanks around the whole and one point in front are
ignored. `Path.read` refuses everything else and says why.
-/

namespace Flowline

/-- Why a text is no path expression. -/
inductive PathFault where
  | emptySegment
  | emptySegmentBeforeBracket
  | unclosedBracket
  | unexpectedBracket
  | missingSeparator (position : Nat)
  | trailingPoint
  | badIndex (inner : String)
  | mixedQuotes (key : String)
deriving DecidableEq

/-- The reason in words. -/
def PathFault.reason : PathFault → String
  | emptySegment => "empty path segment"
  | emptySegmentBeforeBracket => "empty path segment before '['"
  | unclosedBracket => "unclosed '['"
  | unexpectedBracket => "unexpected ']'"
  | missingSeparator position =>
    "expected '.' or '[' at position " ++ String.ofList (Decimal.digitChars position)
  | trailingPoint => "path ends with '.'"
  | badIndex inner => "invalid array index '" ++ inner ++ "'"
  | mixedQuotes key => "key '" ++ key ++ "' mixes single and double quotes"

/-- A text that is no path expression, and why. -/
structure QueryError where
  path : String
  fault : PathFault
deriving DecidableEq

/-- The error in words. -/
def QueryError.message (e : QueryError) : String :=
  "invalid query '" ++ e.path ++ "': " ++ e.fault.reason

namespace Path

/-- A character that ends a name. -/
def endsName (c : Char) : Bool := c == '.' || c == '[' || c == ']'

/-- The quoted text of a bracket, if the text stands between two equal quotes. -/
def unquote? (cs : List Char) : Option (List Char) :=
  match cs with
  | [] => none
  | [_] => none
  | q :: rest =>
    if (q = '\'' ∨ q = '"') ∧ rest.getLast? = some q then some rest.dropLast else none

/-- The step that a bracket with this trimmed text stands for. -/
def readBracket (cs : List Char) : Except PathFault Step :=
  let inner := String.ofList cs
  if cs = [] ∨ cs = ['*'] then .ok .wildcard
  else match readNat? maxWord64 inner with
    | some n => .ok (.index n)
    | none => match unquote? cs with
      | some name => .ok (.key (String.ofList name))
      | none => .error (.badIndex inner)

/-- Where the reader stands: before anything, behind a point, or behind a step. -/
inductive Place where
  | start
  | afterPoint
  | afterStep
deriving DecidableEq

/-- The steps written from a place on; `position` counts the characters before it. -/
def readSteps (place : Place) (position : Nat) (text : List Char) :
    Except PathFault (List Step) :=
  match text with
  | [] => if place = .afterPoint then .error .trailingPoint else .ok []
  | '.' :: rest =>
    if place = .afterStep then readSteps .afterPoint (position + 1) rest
    else .error .emptySegment
  | '[' :: rest =>
    if place = .afterPoint then .error .emptySegmentBeforeBracket
    else
      let inner := rest.takeWhile (· != ']')
      match hrest : rest.dropWhile (· != ']') with
      | [] => .error .unclosedBracket
      | _ :: after => do
        let step ← readBracket (trimChars inner)
        let steps ← readSteps .afterStep (position + inner.length + 2) after
        return step :: steps
  | ']' :: _ => .error .unexpectedBracket
  | c :: rest =>
    if place = .afterStep then .error (.missingSeparator position)
    else
      let name := c :: rest.takeWhile (!endsName ·)
      let steps := readSteps .afterStep (position + name.length) (rest.dropWhile (!endsName ·))
      steps.map (.key (String.ofList name) :: ·)
termination_by text.length
decreasing_by
  · simp
  · have h : (rest.dropWhile (· != ']')).length ≤ rest.length :=
      (List.dropWhile_sublist _).length_le
    rw [hrest] at h
    simp at h ⊢
    omega
  · have h : (rest.dropWhile (!endsName ·)).length ≤ rest.length :=
      (List.dropWhile_sublist _).length_le
    simp at h ⊢
    omega

/-- The first name with both kinds of quotes, which no query can hold. -/
def mixedName? (steps : List Step) : Option String :=
  steps.findSome? fun
    | .key name =>
      if name.toList.contains '\'' && name.toList.contains '"' then some name else none
    | _ => none

/-- The expression without the blanks around it and one point in front. -/
def body (raw : String) : List Char :=
  match trimChars raw.toList with
  | '.' :: rest => rest
  | all => all

/-- Read a path expression. -/
def read (raw : String) : Except QueryError Path :=
  match readSteps .start 0 (body raw) with
  | .error fault => .error ⟨raw, fault⟩
  | .ok steps =>
    match mixedName? steps with
    | some name => .error ⟨raw, .mixedQuotes name⟩
    | none => .ok ⟨raw, steps⟩

end Path

/-- Read a path expression and evaluate it. -/
def query (value : Json) (path : String) : Except QueryError (Option Json) :=
  (Path.read path).map (·.evaluate? value)

end Flowline
