import Flowline.Shell.Arithmetic
import Flowline.Shell.Regex
import Flowline.Text.Search

/-!
# Filters

The commands that read their input, or files, and write it changed. A filter is a function on what
it reads; `Filter.run?` finds it by the name of the command.
-/

namespace Flowline.Shell

/-- The lines of a text; the last one need not be ended. -/
def linesOf (text : List Char) : List (List Char) :=
  match (splitEach '\n' text).reverse with
  | [] :: before => before.reverse
  | lines => lines.reverse

/-- Lines as a text, each ended. -/
def textOfLines (lines : List (List Char)) : List Char := lines.flatMap (· ++ ['\n'])

/-- The text behind an end of it that it may have. -/
def withoutEnd (suffix text : List Char) : List Char :=
  if suffix.isSuffixOf text && suffix != text then text.take (text.length - suffix.length) else text

namespace Filter

/-- What a filter reads: the text of a file, by its name, or of the input without one. -/
structure Content where
  file : Option String
  text : List Char

/-- What a filter writes, and how it ends. -/
structure Result where
  text : List Char := []
  status : Nat := 0
  complaint : Option String := none

/-! ## Options -/

/-- The letters of options, with their values, and the other arguments. -/
structure Arguments where
  options : List (Char × String) := []
  operands : List String := []
  /-- A letter that is no option. -/
  unknown : Option Char := none
  /-- An option whose value is missing. -/
  unvalued : Option Char := none

namespace Arguments

/-- An option is given. -/
def has (a : Arguments) (c : Char) : Bool := a.options.any (·.1 == c)

/-- An option is the last one. -/
def isLast (a : Arguments) (c : Char) : Bool := (a.options.getLast?.map (·.1)) == some c

/-- The value of the option that is given last. -/
def value? (a : Arguments) (c : Char) : Option String :=
  (a.options.reverse.find? (·.1 == c)).map (·.2)

/-- The letters in front of an argument; one that takes a value takes the rest of the argument, or
else the next one, of which the first may be used. -/
def letters (valued plain : String) (a : Arguments) : List Char → List String → Arguments × Bool
  | [], _ => (a, false)
  | c :: rest, next =>
    if valued.toList.contains c then
      if rest.isEmpty then
        ({ a with options := a.options ++ [(c, next.headD "")]
                  unvalued := a.unvalued.or (if next.isEmpty then some c else none) }, true)
      else ({ a with options := a.options ++ [(c, String.ofList rest)] }, false)
    else if plain.toList.contains c then
      letters valued plain { a with options := a.options ++ [(c, "")] } rest next
    else ({ a with unknown := a.unknown.or (some c) }, false)

/-- Read arguments of a command that has some options with a value and some without one. Unless
`mixed`, what follows the first operand is no option. -/
def read (valued plain : String) (mixed : Bool) : Nat → Arguments → List String → Arguments
  | 0, a, _ => a
  | _, a, [] => a
  | fuel + 1, a, arg :: rest =>
    if arg == "--" then { a with operands := a.operands ++ rest }
    else
      match arg.toList with
      | '-' :: c :: cs =>
        let (a, usesNext) := letters valued plain a (c :: cs) rest
        read valued plain mixed fuel a (if usesNext then rest.drop 1 else rest)
      | _ =>
        let a := { a with operands := a.operands ++ [arg] }
        if mixed then read valued plain mixed fuel a rest
        else { a with operands := a.operands ++ rest }

end Arguments

/-- The options of a filter: those with a value and those without one. -/
def optionsOf (name : String) : String × String :=
  match name with
  | "cat" => ("", "nuAbensTvET")
  | "head" | "tail" => ("nc", "qv")
  | "wc" => ("", "lwcmL")
  | "sort" => ("kto", "nrufbscdM")
  | "uniq" => ("fsw", "cdui")
  | "tr" => ("", "cCds")
  | "cut" => ("dfcb", "s")
  | "grep" | "egrep" | "fgrep" => ("emABC", "vicqnoEFGxwlsHhL")
  | "sed" => ("e", "nErsu")
  | "nl" => ("bw", "")
  | "paste" => ("d", "s")
  | _ => ("", "")

/-- The arguments of a filter; a number behind a dash counts lines. -/
def argumentsOf (name : String) (args : List String) : Arguments :=
  let (valued, plain) := optionsOf name
  let args := match name, args with
    | "head", arg :: rest | "tail", arg :: rest =>
      match arg.toList with
      | '-' :: d :: ds => if d.isDigit then ("-n" ++ String.ofList (d :: ds)) :: rest else args
      | _ => args
    | _, _ => args
  Arguments.read valued plain (name != "tr") (args.length + 1) {} args

/-! ## Characters -/

/-- A character behind a backslash, in a set of `tr`, and what follows. -/
def escapedCharacter (c : Char) (rest : List Char) : Char × List Char :=
  if '0' ≤ c && c ≤ '7' then
    let (digits, _) := spanBase 8 ((c :: rest).take 3)
    (Char.ofNat (valueIn 8 digits % 256), (c :: rest).drop digits.length)
  else
    let d := match c with
      | 'n' => '\n'
      | 't' => '\t'
      | 'r' => '\r'
      | 'a' => '\x07'
      | 'b' => '\x08'
      | 'f' => '\x0c'
      | 'v' => '\x0b'
      | c => c
    (d, rest)

/-- The characters of one byte. -/
def allCharacters : List Char := (List.range 256).map Char.ofNat

/-- The characters of a set of `tr`. -/
def characters : Nat → List Char → List Char
  | 0, _ => []
  | fuel + 1, cs =>
    let range (a : Char) (rest : List Char) : List Char :=
      match rest with
      | '-' :: b :: rest =>
        let (b, rest) := match b, rest with
          | '\\', c :: rest => escapedCharacter c rest
          | _, _ => (b, rest)
        (allCharacters.filter fun c => a ≤ c && c ≤ b) ++ characters fuel rest
      | rest => a :: characters fuel rest
    match cs with
    | [] => []
    | '[' :: ':' :: rest =>
      match PatternPart.kindName? (rest.map (·, false)) with
      | some (name, rest) =>
        allCharacters.filter (ofKind name) ++ characters fuel (rest.map (·.1))
      | none => '[' :: characters fuel (':' :: rest)
    | '\\' :: c :: rest =>
      let (c, rest) := escapedCharacter c rest
      range c rest
    | c :: rest => range c rest

/-- Leave only one of a run of equal characters of a set. -/
def squeeze (set : List Char) : List Char → List Char
  | a :: b :: rest =>
    if a == b && set.contains a then squeeze set (b :: rest) else a :: squeeze set (b :: rest)
  | short => short

/-- Replace, delete or squeeze characters. -/
def translate (a : Arguments) (text : List Char) : Result :=
  let sets := a.operands.map fun s => characters (s.length + 1) s.toList
  let isComplement := a.has 'c' || a.has 'C'
  let first := sets.headD []
  let first := if isComplement then allCharacters.filter fun c => !first.contains c else first
  let second := sets.getD 1 []
  let replaced (c : Char) : Char :=
    match first.idxOf? c with
    | some i => (second[i]?.orElse fun _ => second.getLast?).getD c
    | none => c
  match a.has 'd', a.has 's', sets.length with
  | true, false, 1 => { text := text.filter fun c => !first.contains c }
  | true, true, 2 => { text := squeeze second (text.filter fun c => !first.contains c) }
  | false, true, 1 => { text := squeeze first text }
  | false, true, 2 => { text := squeeze second (text.map replaced) }
  | false, false, 2 => { text := text.map replaced }
  | _, _, 0 => { status := 1, complaint := some "missing operand" }
  | _, _, _ => { status := 1, complaint := some "missing or extra operand" }

/-! ## Lines -/

/-- How many items an option asks for: so many, all but so many, or all from one on. -/
inductive Amount where
  | first (n : Nat)
  | allBut (n : Nat)
  | startingAt (n : Nat)

/-- The amount that an option value denotes. -/
def amount? (s : String) : Option Amount :=
  let number (cs : List Char) : Option Nat :=
    if cs.isEmpty || !cs.all isDigit then none else some (digitsValue 0 cs)
  match s.toList with
  | '-' :: cs => (number cs).map .allBut
  | '+' :: cs => (number cs).map .startingAt
  | cs => (number cs).map .first

/-- The items at the beginning. -/
def atStart {α : Type} (amount : Amount) (items : List α) : List α :=
  match amount with
  | .first n => items.take n
  | .allBut n => items.take (items.length - n)
  | .startingAt n => items.take n

/-- The items at the end. -/
def atEnd {α : Type} (amount : Amount) (items : List α) : List α :=
  match amount with
  | .first n | .allBut n => items.drop (items.length - n)
  | .startingAt n => items.drop (n - 1)

/-- The lines of a text with their ends. -/
def endedLines (text : List Char) : List (List Char) :=
  let lines := linesOf text
  if text.getLast? == some '\n' || text.isEmpty then lines.map (· ++ ['\n'])
  else lines.dropLast.map (· ++ ['\n']) ++ [lines.getLastD []]

/-- A part of a text, by lines or by characters. -/
def cutText (isEnd : Bool) (a : Arguments) (text : List Char) : Option (List Char) := do
  let part {α : Type} (amount : Amount) (items : List α) : List α :=
    if isEnd then atEnd amount items else atStart amount items
  match a.value? 'c' with
  | some s => return part (← amount? s) text
  | none => return (part (← amount? ((a.value? 'n').getD "10")) (endedLines text)).flatten

/-- The beginnings or the ends of files, each under its name if there are several. -/
def headOrTail (isEnd : Bool) (a : Arguments) (contents : List Content) : Result :=
  let parts := contents.mapM fun c => do
    let part ← cutText isEnd a c.text
    let title := match c.file with
      | some file => if 1 < contents.length && !a.has 'q' then "==> " ++ file ++ " <==\n" else ""
      | none => ""
    return title.toList ++ part
  match parts with
  | some parts => { text := ['\n'].intercalate parts }
  | none => { status := 1, complaint := some "invalid number of lines" }

/-- How many words a text has. -/
def wordCount (text : List Char) : Nat :=
  (text.foldl (fun (n, inside) c =>
    if c.isWhitespace then (n, false) else (if inside then n else n + 1, true)) (0, false)).1

/-- A number, filled up in front. -/
def padded (width n : Nat) : List Char :=
  let digits := Nat.toDigits 10 n
  List.replicate (width - digits.length) ' ' ++ digits

/-- Count lines, words and characters. -/
def count (a : Arguments) (isPipe : Bool) (contents : List Content) : Result :=
  let letters := ['l', 'w', 'm', 'c'].filter fun c => a.has c || (a.options.isEmpty && c != 'm')
  let countOf (c : Char) (text : List Char) : Nat :=
    match c with
    | 'l' => text.count '\n'
    | 'w' => wordCount text
    | _ => text.length
  let size := (contents.map fun c => c.text.length).foldl (· + ·) 0
  let width :=
    if letters.length = 1 && contents.length ≤ 1 then 1
    else if isPipe && contents.any (·.file.isNone) then 7
    else (Nat.toDigits 10 size).length
  let line (file : Option String) (counts : List Nat) : List Char :=
    [' '].intercalate (counts.map (padded width)) ++
      (file.elim "" fun f => " " ++ f).toList ++ ['\n']
  let rows := contents.map fun c => letters.map fun l => countOf l c.text
  let totals := letters.mapIdx fun i _ => (rows.map fun row => row.getD i 0).foldl (· + ·) 0
  let lines := (contents.zip rows).flatMap fun (c, row) => line c.file row
  { text := lines ++ if 1 < contents.length then line (some "total") totals else [] }

/-- Runs of lines that are the same for a key, each with its length. -/
def runs (key : List Char → List Char) : List (List Char) → List (List Char × Nat)
  | [] => []
  | l :: rest =>
    match runs key rest with
    | (l', n) :: more => if key l == key l' then (l, n + 1) :: more else (l, 1) :: (l', n) :: more
    | [] => [(l, 1)]

/-- Leave one of each run of equal lines. -/
def distinct (a : Arguments) (text : List Char) : Result :=
  let key := if a.has 'i' then List.map Char.toLower else id
  let found := (runs key (linesOf text)).filter fun r =>
    (!a.has 'd' || 1 < r.2) && (!a.has 'u' || r.2 = 1)
  { text := textOfLines (found.map fun r =>
      if a.has 'c' then padded 7 r.2 ++ ' ' :: r.1 else r.1) }

/-- The number at the beginning of a text, in thousandths of thousandths. -/
def leadingNumber (cs : List Char) : Int :=
  let cs := cs.dropWhile fun c => c == ' ' || c == '\t'
  let (negative, cs) := match cs with
    | '-' :: rest => (true, rest)
    | cs => (false, cs)
  let (whole, rest) := spanDigits cs
  let fraction := match rest with
    | '.' :: rest => (spanDigits rest).1
    | _ => []
  let n : Int := digitsValue 0 (whole ++ (fraction ++ List.replicate 6 '0').take 6)
  if negative then -n else n

/-- The fields of a line for sorting: with a separator they stand between its occurrences, and
else each begins with the blanks before it. -/
def sortFields (separator : Option Char) (line : List Char) : List (List Char) :=
  match separator with
  | some c => splitEach c line
  | none =>
    line.foldr (fun c fields =>
      match fields with
      | (d :: field) :: rest =>
        if c != ' ' && c != '\t' && (d == ' ' || d == '\t') then [c] :: (d :: field) :: rest
        else (c :: d :: field) :: rest
      | _ => [[c]]) []

/-- A key of sorting: the fields that it reaches over, and its letters. -/
structure SortKey where
  first : Nat
  last : Option Nat
  letters : List Char

/-- Read a key. -/
def SortKey.read (s : String) : SortKey :=
  let (first, rest) := spanDigits s.toList
  let rest := rest.dropWhile fun c => c == '.' || isDigit c
  let letters := rest.takeWhile Char.isAlpha
  match rest.drop letters.length with
  | ',' :: rest =>
    let (last, rest) := spanDigits rest
    { first := digitsValue 0 first, last := some (digitsValue 0 last)
      letters := letters ++ rest.filter Char.isAlpha }
  | _ => { first := digitsValue 0 first, last := none, letters }

/-- Compare two texts under letters. -/
def compareTexts (letters : List Char) (a b : List Char) : Ordering :=
  let blankless (cs : List Char) : List Char :=
    if letters.contains 'b' then cs.dropWhile fun c => c == ' ' || c == '\t' else cs
  let shown (cs : List Char) : List Char :=
    if letters.contains 'f' then (blankless cs).map Char.toUpper else blankless cs
  let found :=
    if letters.contains 'n' then compare (leadingNumber a) (leadingNumber b)
    else
      let x := String.ofList (shown a)
      let y := String.ofList (shown b)
      if x < y then .lt else if x = y then .eq else .gt
  if letters.contains 'r' then found.swap else found

/-- Sort lines. -/
def sortLines (a : Arguments) (lines : List (List Char)) : List (List Char) :=
  let letters := a.options.filterMap fun o => if o.1 == 'k' then none else some o.1
  let keys := a.options.filterMap fun o => if o.1 == 'k' then some (SortKey.read o.2) else none
  let separator := (a.value? 't').bind fun s => s.toList.head?
  let between := (separator.map fun c => [c]).getD []
  let keyText (k : SortKey) (line : List Char) : List Char :=
    let fields := (sortFields separator line).drop (k.first - 1)
    between.intercalate (k.last.elim fields fun last => fields.take (last + 1 - k.first))
  let byKeys (x y : List Char) : Ordering :=
    if keys.isEmpty then compareTexts letters x y
    else
      keys.foldl (fun found k =>
        let own := if k.letters.isEmpty then letters else k.letters
        found.then (compareTexts own (keyText k x) (keyText k y))) .eq
  let whole := if letters.contains 'r' then ['r'] else []
  let order (x y : List Char) : Ordering :=
    if a.has 's' || a.has 'u' then byKeys x y else (byKeys x y).then (compareTexts whole x y)
  let sorted := lines.mergeSort fun x y => order x y != .gt
  if a.has 'u' then
    sorted.foldr (fun l kept =>
      match kept with
      | next :: rest => if byKeys l next = .eq then l :: rest else l :: kept
      | [] => [l]) []
  else sorted

/-- Ranges of numbers, such as `1,3-5,7-`; a range without an end has none. -/
def ranges (s : String) : List (Nat × Option Nat) :=
  (splitEach ',' s.toList).map fun part =>
    let (first, rest) := spanDigits part
    let start := if first.isEmpty then 1 else digitsValue 0 first
    match rest with
    | '-' :: last => (start, if last.isEmpty then none else some (digitsValue 0 last))
    | _ => (start, some start)

/-- The items whose numbers are in ranges. -/
def select {α : Type} (ranges : List (Nat × Option Nat)) (items : List α) : List α :=
  (items.zipIdx 1).filterMap fun (item, i) =>
    if ranges.any fun r => r.1 ≤ i && r.2.all (i ≤ ·) then some item else none

/-- Cut parts out of lines. -/
def cutLines (a : Arguments) (text : List Char) : Result :=
  let lines := linesOf text
  match (a.value? 'c').or (a.value? 'b'), a.value? 'f' with
  | some s, _ => { text := textOfLines (lines.map (select (ranges s))) }
  | none, some s =>
    let separator := ((a.value? 'd').bind fun d => d.toList.head?).getD '\t'
    { text := textOfLines (lines.filterMap fun line =>
        if !line.contains separator then if a.has 's' then none else some line
        else some ([separator].intercalate (select (ranges s) (splitEach separator line)))) }
  | none, none =>
    { status := 1
      complaint := some "you must specify a list of bytes, characters, or fields" }

/-- Number lines. -/
def numberLines (text : List Char) : List Char :=
  ((endedLines text).zipIdx 1).flatMap fun (line, i) => padded 6 i ++ '\t' :: line

/-- Put lines side by side, or one after the other. -/
def paste (a : Arguments) (contents : List Content) : Result :=
  let separator := ((a.value? 'd').bind fun d => d.toList.head?).getD '\t'
  let columns := contents.map fun c => linesOf c.text
  if a.has 's' then { text := textOfLines (columns.map ([separator].intercalate ·)) }
  else
    let height := (columns.map List.length).foldl max 0
    { text := textOfLines ((List.range height).map fun i =>
        [separator].intercalate (columns.map fun c => c.getD i [])) }

/-! ## Searching -/

/-- The expressions that `grep` looks for, and the files. -/
def patternsAndFiles (a : Arguments) : List String × List String :=
  let given := a.options.filterMap fun o => if o.1 == 'e' then some o.2 else none
  match given, a.operands with
  | [], p :: files => ([p], files)
  | given, files => (given, files)

/-- All matches in a line. -/
def matchesIn (r : Regex) (fold : Char → Char) : Nat → Option Char → List Char → List (List Char)
  | 0, _, _ => []
  | fuel + 1, before, cs =>
    match r.search fold before cs with
    | none => []
    | some f =>
      if f.text.isEmpty then
        match f.after with
        | c :: rest => matchesIn r fold fuel (some c) rest
        | [] => []
      else f.text :: matchesIn r fold fuel f.text.getLast? f.after

/-- Look for lines. -/
def searchLines (name : String) (a : Arguments) (contents : List Content) : Result :=
  let (patterns, _) := patternsAndFiles a
  let texts := patterns.flatMap fun p => splitEach '\n' p.toList
  let literal := a.has 'F' || name == "fgrep"
  let read (cs : List Char) : Option Regex :=
    if literal then some (cs.foldr (fun c r => .append (.char c) r) .empty)
    else Regex.read? (a.has 'E' || name == "egrep") cs
  match texts.mapM read with
  | none => { status := 2, complaint := some "Invalid regular expression" }
  | some [] => { status := 2, complaint := some "usage: grep [OPTION]... PATTERNS [FILE]..." }
  | some (first :: more) =>
    let one := more.foldl .either first
    let one := if a.has 'w' then
        .append (.wordBorder false) (.append one (.wordBorder false)) else one
    let r := if a.has 'x' then .append .lineStart (.append one .lineEnd) else one
    let fold : Char → Char := if a.has 'i' then Char.toLower else id
    let wanted (line : List Char) : Bool := (r.search fold none line).isSome != a.has 'v'
    let named := (1 < contents.length || a.has 'H') && !a.has 'h'
    let ofContent (c : Content) : List Char × Bool :=
      let file := c.file.getD "(standard input)"
      let label := if named then (file ++ ":").toList else []
      let limit := ((a.value? 'm').bind fun m => (amount? m).bind fun
        | .first n => some n
        | _ => none)
      let found := ((linesOf c.text).zipIdx 1).filter fun l => wanted l.1
      let found := limit.elim found found.take
      let number (i : Nat) : List Char := if a.has 'n' then Nat.toDigits 10 i ++ [':'] else []
      let text :=
        if a.has 'q' then []
        else if a.has 'l' then if found.isEmpty then [] else file.toList ++ ['\n']
        else if a.has 'c' then label ++ Nat.toDigits 10 found.length ++ ['\n']
        else if a.has 'o' then
          found.flatMap fun (line, i) =>
            (matchesIn r fold (line.length + 1) none line).flatMap fun part =>
              label ++ number i ++ part ++ ['\n']
        else found.flatMap fun (line, i) => label ++ number i ++ line ++ ['\n']
      (text, !found.isEmpty)
    let results := contents.map ofContent
    { text := results.flatMap (·.1), status := if results.any (·.2) then 0 else 1 }

/-! ## By name -/

/-- The files that a filter reads, if its arguments name some. -/
def filesOf (name : String) (args : List String) : List String :=
  let a := argumentsOf name args
  match name with
  | "tr" => []
  | "grep" | "egrep" | "fgrep" => (patternsAndFiles a).2
  | _ => a.operands

/-- Run a filter on what it reads, if there is such a filter. -/
def run? (name : String) (args : List String) (isPipe : Bool) (contents : List Content) :
    Option Result :=
  let a := argumentsOf name args
  let text := contents.flatMap (·.text)
  match name with
  | "cat" => some { text := if a.has 'n' then numberLines text else text }
  | "tac" => some { text := (endedLines text).reverse.flatten }
  | "rev" => some { text := textOfLines ((linesOf text).map List.reverse) }
  | "nl" => some { text := numberLines text }
  | "head" => some (headOrTail false a contents)
  | "tail" => some (headOrTail true a contents)
  | "wc" => some (count a isPipe contents)
  | "sort" =>
    some { text := textOfLines (sortLines a (contents.flatMap fun c => linesOf c.text)) }
  | "uniq" => some (distinct a text)
  | "tr" => some (translate a text)
  | "cut" => some (cutLines a text)
  | "paste" => some (paste a contents)
  | "grep" | "egrep" | "fgrep" => some (searchLines name a contents)
  | _ => none

end Filter

end Flowline.Shell
