import Flowline.Shell.Machine
import Flowline.Shell.Pattern

/-!
# Fields

What an expanded word is made of. What unquoted expansions give is split into fields at the
separators, and a field that is a pattern stands for the names of the files that it matches.
-/

namespace Flowline.Shell

/-- A piece of an expanded word. -/
inductive Piece where
  /-- Text that is not split. -/
  | fixed (marks : List Mark)
  /-- Text that is split at separators. -/
  | loose (cs : List Char)
  /-- The end of a field. -/
  | cut
deriving DecidableEq

/-- A text as a piece: a quoted one is not split. -/
def Piece.ofText (quoted : Bool) (cs : List Char) : Piece :=
  if quoted then .fixed (cs.map (·, true)) else .loose cs

/-- The characters that separate fields. -/
def Machine.separators (m : Machine) : List Char := ((m.value? "IFS").getD " \t\n").toList

/-- A separator of which several count as one. -/
def isBlankSeparator (c : Char) : Bool := c == ' ' || c == '\t' || c == '\n'

/-- Fields that are put together: those that are complete, and the one that is begun. -/
structure FieldBuilder where
  complete : List (List Mark) := []
  begun : Option (List Mark) := none

namespace FieldBuilder

/-- Add characters to the field that is begun. -/
def add (b : FieldBuilder) (marks : List Mark) : FieldBuilder :=
  { b with begun := some (b.begun.getD [] ++ marks) }

/-- End the field that is begun; with `empty`, even if none is. -/
def close (b : FieldBuilder) (empty : Bool) : FieldBuilder :=
  match b.begun with
  | some field => { complete := b.complete ++ [field] }
  | none => if empty then { complete := b.complete ++ [[]] } else b

/-- Add text that is split at separators. A separator that is no blank ends a field even if that
is empty; `afterBlank` tells that blanks have just ended one. -/
def addLoose (separators : List Char) (b : FieldBuilder) (afterBlank : Bool) :
    List Char → FieldBuilder
  | [] => b
  | c :: rest =>
    if separators.contains c then
      if isBlankSeparator c then
        addLoose separators (b.close false) (afterBlank || b.begun.isSome) rest
      else if afterBlank && b.begun.isNone then addLoose separators b false rest
      else addLoose separators (b.close true) false rest
    else
      let text := rest.takeWhile fun d => !separators.contains d
      addLoose separators (b.add ((c :: text).map (·, false))) false (rest.drop text.length)
termination_by cs => cs.length
decreasing_by all_goals (simp only [List.length_cons, List.length_drop]; omega)

/-- Add a piece. -/
def addPiece (separators : List Char) (b : FieldBuilder) : Piece → FieldBuilder
  | .fixed marks => b.add marks
  | .loose cs => b.addLoose separators false cs
  | .cut => b.close false

end FieldBuilder

/-- The fields of an expanded word. -/
def fieldsOf (separators : List Char) (pieces : List Piece) : List (List Mark) :=
  ((pieces.foldl (FieldBuilder.addPiece separators) {}).close false).complete

/-- All marked characters of an expanded word that is not split; the first separator stands where
a field would end. -/
def Machine.marksOf (m : Machine) (pieces : List Piece) : List Mark :=
  pieces.flatMap fun
    | .fixed marks => marks
    | .loose cs => cs.map (·, false)
    | .cut => (m.separators.take 1).map (·, true)

/-- The text of an expanded word that is not split. -/
def Machine.textOf (m : Machine) (pieces : List Piece) : String := plainText (m.marksOf pieces)

/-- The list of arguments as pieces. -/
def Machine.argumentPieces (m : Machine) (name : String) (quoted : Bool) : List Piece :=
  if name == "*" && quoted then
    [Piece.ofText true ((m.separators.take 1).intercalate (m.arguments.map String.toList))]
  else (m.arguments.map fun a => Piece.ofText quoted a.toList).intersperse .cut

/-- Text that stands for a missing value outside of quotes: what is not quoted in it is split. -/
def loosen (pieces : List Piece) : List Piece :=
  pieces.flatMap fun
    | .fixed [] => [.fixed []]
    | .fixed marks => marks.foldr addMark []
    | piece => [piece]
where
  /-- A marked character in front of pieces. -/
  addMark (mark : Mark) (pieces : List Piece) : List Piece :=
    match mark, pieces with
    | (c, true), .fixed marks :: rest => .fixed ((c, true) :: marks) :: rest
    | (c, true), rest => .fixed [(c, true)] :: rest
    | (c, false), .loose cs :: rest => .loose (c :: cs) :: rest
    | (c, false), rest => .loose [c] :: rest

/-! ## The fields of a line -/

/-- The last field of a line from its first separator on: all of it, but without blanks at the end
and, if only one field is there, without the separator that ends it. `spare` is what may be left
out, and `afterBlank` tells that a separator may still join it. -/
def lastField (separators : List Char) (afterBlank : Bool) (spare : List Char) :
    List Mark → List Char
  | [] => []
  | (c, quoted) :: rest =>
    let separates := !quoted && separators.contains c
    if separates && isBlankSeparator c then
      lastField separators afterBlank (spare ++ [c]) rest
    else if separates && afterBlank && !spare.isEmpty then
      lastField separators false (spare ++ [c]) rest
    else spare ++ c :: lastField separators false [] rest

/-- Split a line into at most so many fields. -/
def lineFields (separators : List Char) : Nat → List Mark → List (List Char)
  | 0, _ => []
  | more + 1, line =>
    let separates (m : Mark) : Bool := !m.2 && separators.contains m.1
    let blank (m : Mark) : Bool := separates m && isBlankSeparator m.1
    let line := line.dropWhile blank
    let field := (line.takeWhile fun m => !separates m).map (·.1)
    match line, line.drop field.length with
    | [], _ => []
    | _, [] => [field]
    | _, t :: rest =>
      if more = 0 then [field ++ lastField separators (blank t) [t.1] rest]
      else
        let rest := rest.dropWhile blank
        let rest := match rest with
          | d :: after => if blank t && separates d then after.dropWhile blank else rest
          | [] => []
        field :: lineFields separators more rest

/-! ## Names of files -/

/-- The part of a path before the next slash, and what follows the slashes there. -/
def splitPath (marks : List Mark) : List Mark × List Mark × List Mark :=
  let part := marks.takeWhile (·.1 != '/')
  let rest := marks.drop part.length
  (part, rest.takeWhile (·.1 == '/'), rest.dropWhile (·.1 == '/'))

/-- The paths that a pattern matches, behind what of them is read already. -/
def pathsMatching (fs : Files) (directory : String) :
    Nat → String → List Mark → List String
  | 0, _, _ => []
  | fuel + 1, before, marks =>
    let (part, slashes, rest) := splitPath marks
    let isLast := slashes.isEmpty
    let text (ms : List Mark) : String := plainText ms
    let goOn (name : String) : List String :=
      let path := before ++ name
      if isLast then
        match fs.find false directory path with
        | .ok _ => [path]
        | .error _ => []
      else if rest.isEmpty then
        if fs.isDirectory directory path then [path ++ text slashes] else []
      else pathsMatching fs directory fuel (path ++ text slashes) rest
    if isPattern part then
      let pattern := patternOf part
      let holder := if before == "" then "." else before
      match fs.find true directory holder with
      | .ok (names, _) =>
        let hidden := pattern.head? == some (.char '.')
        let held := fs.children names
        let found := (if hidden then "." :: ".." :: held else held).filter fun name =>
          matchesPattern pattern name.toList && (name.toList.head? != some '.' || hidden)
        found.flatMap goOn
      | .error _ => []
    else
      goOn (String.ofList ((patternOf part).filterMap fun
        | .char c => some c
        | _ => none))

/-- What a field stands for: itself, or the names of the files that it matches. -/
def Machine.pathsOf (m : Machine) (field : List Mark) : List String :=
  if m.has 'f' || !isPattern field then [plainText field]
  else
    match pathsMatching m.system.files m.directory (field.length + 1) "" field with
    | [] => [plainText field]
    | paths => paths

/-! ## Tildes -/

/-- The directory that a tilde with a name behind it stands for. -/
def Machine.homeOf? (m : Machine) (name : String) : Option String :=
  if name == "" then m.value? "HOME" else if name == "root" then some "/root" else none

/-- Replace a tilde in front of a text up to a slash or, in an assignment, a colon. What follows
the text may be no part of it. -/
def Machine.expandTilde (m : Machine) (inAssignment : Bool) (cs : List Char) (isLast : Bool) :
    List Mark :=
  let plain (cs : List Char) : List Mark := cs.map (·, false)
  match cs with
  | '~' :: rest =>
    let name := rest.takeWhile fun c => c != '/' && !(inAssignment && c == ':')
    if name.length = rest.length && !isLast then plain cs
    else
      match m.homeOf? (String.ofList name) with
      | some home => home.toList.map (·, true) ++ plain (rest.drop name.length)
      | none => plain cs
  | cs => plain cs

/-- Replace the tildes behind the colons of an assignment, and the one in front if it may stand
there. -/
def Machine.expandTildes (m : Machine) (first isLast : Bool) : List (List Char) → List Mark
  | [] => []
  | [cs] => if first then m.expandTilde true cs isLast else cs.map (·, false)
  | cs :: rest =>
    (if first then m.expandTilde true cs true else cs.map (·, false)) ++
      (':', false) :: m.expandTildes true isLast rest

end Flowline.Shell
