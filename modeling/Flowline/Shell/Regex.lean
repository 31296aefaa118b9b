import Flowline.Number.Numeral
import Flowline.Shell.Pattern

/-!
# Regular expressions

The basic and the extended regular expressions of the filters. `Regex.search` finds the first place
where an expression matches, and there the longest text.
-/

namespace Flowline.Shell

/-- A regular expression. -/
inductive Regex where
  | empty
  | char (c : Char)
  | any
  | among (negated : Bool) (items : List SetItem)
  | lineStart
  | lineEnd
  /-- The border of a word or, if `inverted`, any other place. -/
  | wordBorder (inverted : Bool)
  | append (a b : Regex)
  | either (a b : Regex)
  /-- So many times, or more if there is no limit. -/
  | times (least : Nat) (most : Option Nat) (r : Regex)
  | group (number : Nat) (r : Regex)
  /-- What a group has matched. -/
  | again (number : Nat)

namespace Regex

/-! ## Reading -/

/-- A part of a text that is read: the expression, the number of groups so far, and the rest. -/
structure Read where
  found : Regex
  groups : Nat
  rest : List Char

/-- The bounds of a repetition behind its opening brace. -/
def bounds? (extended : Bool) (cs : List Char) : Option (Nat × Option Nat × List Char) :=
  let close : List Char → Option (List Char)
    | '\x7d' :: rest => if extended then some rest else none
    | '\\' :: '\x7d' :: rest => if extended then none else some rest
    | _ => none
  let (least, rest) := spanDigits cs
  let number (ds : List Char) : Nat := digitsValue 0 ds
  match rest with
  | ',' :: rest =>
    let (most, rest) := spanDigits rest
    (close rest).map fun rest =>
      (number least, if most.isEmpty then none else some (number most), rest)
  | rest =>
    if least.isEmpty then none
    else (close rest).map fun rest => (number least, some (number least), rest)

/-- What repeats the expression before it, and what follows. -/
def repetition? (extended : Bool) (cs : List Char) : Option (Nat × Option Nat × List Char) :=
  match extended, cs with
  | _, '*' :: rest => some (0, none, rest)
  | true, '+' :: rest => some (1, none, rest)
  | true, '?' :: rest => some (0, some 1, rest)
  | true, '\x7b' :: rest => bounds? true rest
  | false, '\\' :: '+' :: rest => some (1, none, rest)
  | false, '\\' :: '?' :: rest => some (0, some 1, rest)
  | false, '\\' :: '\x7b' :: rest => bounds? false rest
  | _, _ => none

/-- What begins a group, an alternative, or ends a group; what follows it. -/
def behind? (extended : Bool) (c : Char) (cs : List Char) : Option (List Char) :=
  match extended, cs with
  | true, d :: rest => if c == d then some rest else none
  | false, '\\' :: d :: rest => if c == d then some rest else none
  | _, _ => none

/-- The text ends here, or at least the group does. -/
def endsHere (extended : Bool) (cs : List Char) : Bool :=
  cs.isEmpty || (behind? extended ')' cs).isSome || (behind? extended '|' cs).isSome

/-- The characters that a word is made of. -/
def wordItems : List SetItem := [.kind "alnum", .range '_' '_']

/-- What a backslash makes of a character. -/
def escaped (c : Char) : Regex :=
  match c with
  | 'n' => .char '\n'
  | 't' => .char '\t'
  | 'w' => .among false wordItems
  | 'W' => .among true wordItems
  | 's' => .among false [.kind "space"]
  | 'S' => .among true [.kind "space"]
  | 'b' => .wordBorder false
  | 'B' => .wordBorder true
  | c => if '1' ≤ c && c ≤ '9' then .again (c.toNat - '0'.toNat) else .char c

/-- A set of characters behind its opening bracket. A backslash stands for itself there. -/
def set? (cs : List Char) : Option (Regex × List Char) :=
  let (negated, cs) := match cs with
    | '^' :: rest => (true, rest)
    | cs => (false, cs)
  let marks : List Mark := cs.map fun c => (c, c == '\\')
  (PatternPart.items? true (marks.length + 1) marks).map fun r =>
    (.among negated r.1, r.2.map (·.1))

mutual

/-- Alternatives. -/
def readAny (extended : Bool) : Nat → Nat → List Char → Option Read
  | 0, _, _ => none
  | fuel + 1, groups, cs => do
    let first ← readAll extended fuel true groups cs
    match behind? extended '|' first.rest with
    | some rest =>
      let more ← readAny extended fuel first.groups rest
      return { more with found := .either first.found more.found }
    | none => return first

/-- Expressions one after the other. -/
def readAll (extended : Bool) : Nat → Bool → Nat → List Char → Option Read
  | 0, _, _, _ => none
  | fuel + 1, isFirst, groups, cs => do
    if endsHere extended cs && !(cs.head? == some ')' && groups = 0 && extended) then
      return ⟨.empty, groups, cs⟩
    let one ← readOne extended fuel isFirst groups cs
    let isAnchor := match one.found with
      | .lineStart => true
      | _ => false
    let one := if isAnchor && !extended then one else readTimes extended fuel one
    let more ← readAll extended fuel (isAnchor && !extended) one.groups one.rest
    return { more with found := .append one.found more.found }

/-- The repetitions of an expression. -/
def readTimes (extended : Bool) : Nat → Read → Read
  | 0, one => one
  | fuel + 1, one =>
    match repetition? extended one.rest with
    | some (least, most, rest) =>
      readTimes extended fuel { one with found := .times least most one.found, rest }
    | none => one

/-- A single expression. -/
def readOne (extended : Bool) : Nat → Bool → Nat → List Char → Option Read
  | 0, _, _, _ => none
  | fuel + 1, isFirst, groups, cs => do
    match behind? extended '(' cs with
    | some inside =>
      let r ← readAny extended fuel (groups + 1) inside
      let rest ← behind? extended ')' r.rest
      return ⟨.group (groups + 1) r.found, r.groups, rest⟩
    | none =>
      match cs with
      | [] => none
      | ['\\'] => none
      | '\\' :: c :: rest => return ⟨escaped c, groups, rest⟩
      | '[' :: rest =>
        let (set, rest) ← set? rest
        return ⟨set, groups, rest⟩
      | '.' :: rest => return ⟨.any, groups, rest⟩
      | '^' :: rest => return ⟨if extended || isFirst then .lineStart else .char '^', groups, rest⟩
      | '$' :: rest =>
        return ⟨if extended || endsHere extended rest then .lineEnd else .char '$', groups, rest⟩
      | c :: rest => return ⟨.char c, groups, rest⟩

end

/-- Read an expression. -/
def read? (extended : Bool) (text : List Char) : Option Regex := do
  let r ← readAny extended (8 * text.length + 8) 0 text
  if r.rest.isEmpty then return r.found else none

/-! ## Matching -/

/-- A place in a text, and what the groups have matched on the way to it. -/
structure Place where
  before : Option Char
  rest : List Char
  groups : List (Nat × List Char) := []

/-- The place behind some characters. -/
def Place.skip (p : Place) (n : Nat) : Place :=
  { p with before := if n = 0 then p.before else p.rest[n - 1]?, rest := p.rest.drop n }

/-- The place behind a character of a kind. -/
def Place.step (p : Place) (holds : Char → Bool) : List Place :=
  match p.rest with
  | c :: _ => if holds c then [p.skip 1] else []
  | [] => []

/-- The character belongs to a word. -/
def inWord (c : Option Char) : Bool := c.any (inSet wordItems)

mutual

/-- The places where a match can end that begins at a place. -/
def ends (fold : Char → Char) : Nat → Regex → Place → List Place
  | 0, _, _ => []
  | fuel + 1, r, p =>
    match r with
    | .empty => [p]
    | .char c => p.step fun d => fold c == fold d
    | .any => p.step fun _ => true
    | .among negated items => p.step fun d =>
        let found := inSet items d || inSet items (fold d)
        (found || inSet items d.toUpper && fold 'A' == 'a') != negated
    | .lineStart => if p.before.isNone then [p] else []
    | .lineEnd => if p.rest.isEmpty then [p] else []
    | .wordBorder inverted =>
      if (inWord p.before != inWord p.rest.head?) != inverted then [p] else []
    | .append a b => (ends fold fuel a p).flatMap (ends fold fuel b)
    | .either a b => ends fold fuel a p ++ ends fold fuel b p
    | .times least most r => repeats fold fuel least most r p
    | .group n r =>
      (ends fold fuel r p).map fun q =>
        { q with groups := (n, p.rest.take (p.rest.length - q.rest.length)) :: q.groups }
    | .again n =>
      match p.groups.lookup n with
      | some text => if text.isPrefixOf p.rest then [p.skip text.length] else []
      | none => []

/-- The places where repetitions can end. -/
def repeats (fold : Char → Char) : Nat → Nat → Option Nat → Regex → Place → List Place
  | 0, _, _, _, _ => []
  | fuel + 1, least, most, r, p =>
    if most = some 0 then [p]
    else
      let once := ends fold fuel r p
      let once := if least = 0 then once.filter fun q => q.rest.length < p.rest.length else once
      let more := once.flatMap (repeats fold fuel (least - 1) (most.map (· - 1)) r)
      if least = 0 then more ++ [p] else more

end

/-- The farthest of some places, the first one of several. -/
def farthest : List Place → Option Place
  | [] => none
  | p :: ps =>
    match farthest ps with
    | some q => if q.rest.length < p.rest.length then some q else some p
    | none => some p

/-- A match: what stands before it, what it is, what its groups are, and what follows. -/
structure Found where
  before : List Char
  text : List Char
  groups : List (Nat × List Char)
  after : List Char

/-- The longest match that begins here. -/
def matchHere (r : Regex) (fold : Char → Char) (before : Option Char) (cs : List Char) :
    Option Found :=
  (farthest (ends fold (cs.length + 2000) r ⟨before, cs, []⟩)).map fun q =>
    ⟨[], cs.take (cs.length - q.rest.length), q.groups, q.rest⟩

/-- Find the first match, and there the longest one. -/
def search (r : Regex) (fold : Char → Char) (before : Option Char) : List Char → Option Found
  | [] => matchHere r fold before []
  | c :: rest =>
    match matchHere r fold before (c :: rest) with
    | some f => some f
    | none => (search r fold (some c) rest).map fun f => { f with before := c :: f.before }

end Regex

end Flowline.Shell
