import Flowline.Shell.Filter

/-!
# Editing lines

The commands by which `sed` edits its input line by line. A script is a list of commands, each for
the lines that its addresses name.
-/

namespace Flowline.Shell

namespace LineEditor

/-- A name for lines. -/
inductive Address where
  | line (n : Nat)
  | last
  | matching (r : Regex)

/-- A part of a replacement. -/
inductive ReplacementPart where
  | text (cs : List Char)
  /-- What a group has matched; group zero is the whole match. -/
  | group (n : Nat)

/-- What a command does. -/
inductive Action where
  | substitute (r : Regex) (replacement : List ReplacementPart) (flags : List Char) (number : Nat)
  | replaceCharacters (source target : List Char)
  | print
  | delete
  | quit
  | number
  | append (text : List Char)
  | insert (text : List Char)
  | change (text : List Char)
  | copyToHold (add : Bool)
  | copyFromHold (add : Bool)
  | exchange
  | nothing

/-- A command: the lines that it is for, and what it does. -/
structure Instruction where
  first : Option Address := none
  last : Option Address := none
  inverted : Bool := false
  action : Action := .nothing

/-! ## Reading -/

/-- The text up to an unprotected mark, and what follows the mark. A protected mark stands for
itself, and an end of a line may be written as a letter. -/
def untilMark (mark : Char) : List Char → Option (List Char × List Char)
  | [] => none
  | '\\' :: c :: rest =>
    (untilMark mark rest).map fun r => (if c == mark then c :: r.1 else '\\' :: c :: r.1, r.2)
  | c :: rest =>
    if c == mark then some ([], rest) else (untilMark mark rest).map fun r => (c :: r.1, r.2)

/-- The parts of a replacement. -/
def replacement : List Char → List ReplacementPart
  | [] => []
  | '\\' :: c :: rest =>
    let part : ReplacementPart :=
      if c.isDigit then .group (c.toNat - '0'.toNat)
      else if c == 'n' then .text ['\n']
      else if c == 't' then .text ['\t']
      else .text [c]
    part :: replacement rest
  | '&' :: rest => .group 0 :: replacement rest
  | c :: rest => .text [c] :: replacement rest

/-- The characters of a list in which a backslash protects. -/
def unprotected : List Char → List Char
  | [] => []
  | '\\' :: 'n' :: rest => '\n' :: unprotected rest
  | '\\' :: c :: rest => c :: unprotected rest
  | c :: rest => c :: unprotected rest

/-- An address in front, and what follows. -/
def address? (extended : Bool) (cs : List Char) : Option (Option Address × List Char) :=
  match cs with
  | '$' :: rest => some (some .last, rest)
  | '/' :: rest => do
    let (text, rest) ← untilMark '/' rest
    return (some (.matching (← Regex.read? extended text)), rest)
  | '\\' :: mark :: rest => do
    let (text, rest) ← untilMark mark rest
    return (some (.matching (← Regex.read? extended text)), rest)
  | cs =>
    let (digits, rest) := spanDigits cs
    some (if digits.isEmpty then none else some (.line (digitsValue 0 digits)), rest)

/-- What may stand between commands. -/
def isGap (c : Char) : Bool := c == ' ' || c == '\t' || c == '\n' || c == ';'

/-- The text of a command that adds lines, behind its letter, and what follows. -/
def addedText (cs : List Char) : List Char × List Char :=
  let isBlankChar (c : Char) : Bool := c == ' ' || c == '\t'
  let cs := cs.dropWhile isBlankChar
  let cs := match cs with
    | '\\' :: rest => (rest.dropWhile isBlankChar).dropWhile (· == '\n')
    | cs => cs
  (unprotected (cs.takeWhile (· != '\n')), (cs.dropWhile (· != '\n')).drop 1)

/-- The action in front, and what follows. -/
def action? (extended : Bool) (cs : List Char) : Option (Action × List Char) :=
  match cs with
  | 's' :: mark :: rest => do
    let (pattern, rest) ← untilMark mark rest
    let (target, rest) ← untilMark mark rest
    let flags := rest.takeWhile Char.isAlphanum
    let digits := flags.filter isDigit
    let r ← Regex.read? extended pattern
    let number := if digits.isEmpty then 1 else digitsValue 0 digits
    return (.substitute r (replacement target) flags number, rest.drop flags.length)
  | 'y' :: mark :: rest => do
    let (source, rest) ← untilMark mark rest
    let (target, rest) ← untilMark mark rest
    return (.replaceCharacters (unprotected source) (unprotected target), rest)
  | 'a' :: rest => let (text, rest) := addedText rest; some (.append text, rest)
  | 'i' :: rest => let (text, rest) := addedText rest; some (.insert text, rest)
  | 'c' :: rest => let (text, rest) := addedText rest; some (.change text, rest)
  | 'p' :: rest => some (.print, rest)
  | 'd' :: rest => some (.delete, rest)
  | 'q' :: rest => some (.quit, rest)
  | '=' :: rest => some (.number, rest)
  | 'h' :: rest => some (.copyToHold false, rest)
  | 'H' :: rest => some (.copyToHold true, rest)
  | 'g' :: rest => some (.copyFromHold false, rest)
  | 'G' :: rest => some (.copyFromHold true, rest)
  | 'x' :: rest => some (.exchange, rest)
  | _ => none

/-- Read a script. -/
def read? (extended : Bool) : Nat → List Char → Option (List Instruction)
  | 0, _ => none
  | fuel + 1, cs => do
    match cs.dropWhile isGap with
    | [] => return []
    | '#' :: rest => read? extended fuel (rest.dropWhile (· != '\n'))
    | cs =>
      let (first, rest) ← address? extended cs
      let (last, rest) ← match first, rest with
        | some _, ',' :: rest => address? extended rest
        | _, rest => some (none, rest)
      let rest := rest.dropWhile (· == ' ')
      let (inverted, rest) := match rest with
        | '!' :: rest => (true, rest.dropWhile (· == ' '))
        | rest => (false, rest)
      let (action, rest) ← action? extended rest
      return { first, last, inverted, action } :: (← read? extended fuel rest)

/-! ## Running -/

/-- An editor at a line. -/
structure State where
  number : Nat := 0
  isLast : Bool := false
  line : List Char := []
  hold : List Char := []
  written : List Char := []
  /-- What is written behind the line. -/
  added : List Char := []
  /-- The commands in whose range the line is, by their places. -/
  inRange : List Nat := []
  deleted : Bool := false
  quits : Bool := false

/-- An address names the line. -/
def Address.names (a : Address) (s : State) : Bool :=
  match a with
  | .line n => s.number = n
  | .last => s.isLast
  | .matching r => (r.search id none s.line).isSome

/-- A range of lines ends at the line that it begins with. -/
def endsAtOnce (final : Address) (s : State) : Bool :=
  match final with
  | .line n => n ≤ s.number
  | .last => s.isLast
  | .matching _ => false

/-- The command at a place is for the line. -/
def applies (s : State) (place : Nat) (i : Instruction) : Bool × State :=
  let (found, s) := match i.first, i.last with
    | none, _ => (true, s)
    | some first, none => (first.names s, s)
    | some first, some final =>
      if s.inRange.contains place then
        let isEnd := match final with
          | .line n => decide (n ≤ s.number)
          | other => other.names s
        (true, if isEnd then { s with inRange := s.inRange.erase place } else s)
      else if first.names s then
        (true, if endsAtOnce final s then s else { s with inRange := place :: s.inRange })
      else (false, s)
  (found != i.inverted, s)

/-- What a replacement gives for a match. -/
def replaced (parts : List ReplacementPart) (f : Regex.Found) : List Char :=
  parts.flatMap fun
    | .text cs => cs
    | .group 0 => f.text
    | .group n => (f.groups.lookup n).getD []

/-- Replace the match of a number, or all from it on: the line, and whether one was replaced. -/
def substitute (r : Regex) (fold : Char → Char) (parts : List ReplacementPart) (isGlobal : Bool) :
    Nat → Nat → Option Char → List Char → List Char × Bool
  | 0, _, _, cs => (cs, false)
  | fuel + 1, number, before, cs =>
    match r.search fold before cs with
    | none => (cs, false)
    | some f =>
      let isIt := number ≤ 1
      let text := if isIt then replaced parts f else f.text
      if isIt && !isGlobal then (f.before ++ text ++ f.after, true)
      else
        let (skipped, after) := if f.text.isEmpty then (f.after.take 1, f.after.drop 1)
          else ([], f.after)
        if f.text.isEmpty && f.after.isEmpty then (f.before ++ text, isIt)
        else
          let last := (f.text ++ skipped).getLast?
          let (rest, found) := substitute r fold parts isGlobal fuel (number - 1) last after
          (f.before ++ text ++ skipped ++ rest, isIt || found)

/-- Run a command on the line. -/
def run (s : State) (place : Nat) (i : Instruction) : State :=
  if s.deleted || s.quits then s
  else
    let (isFor, s) := applies s place i
    if !isFor then s
    else
      let endLine (cs : List Char) : List Char := cs ++ ['\n']
      match i.action with
      | .substitute r parts flags number =>
        let fold : Char → Char :=
          if flags.contains 'I' || flags.contains 'i' then Char.toLower else id
        let (line, found) :=
          substitute r fold parts (flags.contains 'g') (s.line.length + 2) number none s.line
        { s with line
                 written := s.written ++ if found && flags.contains 'p' then endLine line else [] }
      | .replaceCharacters source target =>
        { s with line := s.line.map fun c => ((source.idxOf? c).bind (target[·]?)).getD c }
      | .print => { s with written := s.written ++ endLine s.line }
      | .delete => { s with deleted := true }
      | .quit => { s with quits := true }
      | .number => { s with written := s.written ++ endLine (Nat.toDigits 10 s.number) }
      | .append text => { s with added := s.added ++ endLine text }
      | .insert text => { s with written := s.written ++ endLine text }
      | .change text =>
        let isEnd := i.last.isNone || i.inverted || !s.inRange.contains place
        { s with deleted := true, written := s.written ++ if isEnd then endLine text else [] }
      | .copyToHold add => { s with hold := if add then s.hold ++ '\n' :: s.line else s.line }
      | .copyFromHold add => { s with line := if add then s.line ++ '\n' :: s.hold else s.hold }
      | .exchange => { s with line := s.hold, hold := s.line }
      | .nothing => s

/-- Edit lines, each with its end if it has one. -/
def edit (silent : Bool) (script : List Instruction) (s : State) : List (List Char) → List Char
  | [] => s.written
  | line :: rest =>
    let isEnded := line.getLast? == some '\n'
    let s := { s with number := s.number + 1, isLast := rest.isEmpty, added := [], deleted := false
                      line := if isEnded then line.dropLast else line }
    let s := (script.zipIdx).foldl (fun s (i, place) => run s place i) s
    let shown := if silent || s.deleted then [] else
      s.line ++ if isEnded || !rest.isEmpty then ['\n'] else []
    let s := { s with written := s.written ++ shown ++ s.added }
    if s.quits then s.written else edit silent script s rest

end LineEditor

/-- Edit a text by the script that arguments give, and the files that they name. -/
def LineEditor.ofArguments (args : List String) : Option (List LineEditor.Instruction) × Bool ×
    List String :=
  let a := Filter.argumentsOf "sed" args
  let given := a.options.filterMap fun o => if o.1 == 'e' then some o.2.toList else none
  let (text, files) := match given, a.operands with
    | [], script :: files => (script.toList, files)
    | given, files => (['\n'].intercalate given, files)
  (LineEditor.read? (a.has 'E' || a.has 'r') (text.length + 1) text, a.has 'n', files)

end Flowline.Shell
