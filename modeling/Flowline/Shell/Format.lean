import Flowline.Shell.Arithmetic

/-!
# Formats

What `printf` and `echo` write. A format is text with escapes and with conversions of arguments;
it is used again while arguments are left.
-/

namespace Flowline.Shell

namespace Format

/-- The character of an escape that is a single letter. -/
def letterEscape? : Char → Option Char
  | 'a' => some '\x07'
  | 'b' => some '\x08'
  | 'e' => some '\x1b'
  | 'f' => some '\x0c'
  | 'n' => some '\n'
  | 'r' => some '\r'
  | 't' => some '\t'
  | 'v' => some '\x0b'
  | '\\' => some '\\'
  | _ => none

/-- The character of up to so many octal digits in front, and what follows. -/
def octal (most : Nat) (cs : List Char) : Char × List Char :=
  let (digits, _) := spanBase 8 (cs.take most)
  (Char.ofNat (valueIn 8 digits % 256), cs.drop digits.length)

/-- The text that a text with escapes stands for, and whether an escape ended all output. In an
argument, octal digits may follow a zero, and an escape can end the output. -/
def unescape (argument : Bool) : Nat → List Char → List Char × Bool
  | 0, _ => ([], false)
  | _, [] => ([], false)
  | fuel + 1, '\\' :: c :: rest =>
    let go (c : Char) (rest : List Char) : List Char × Bool :=
      let (more, ended) := unescape argument fuel rest
      (c :: more, ended)
    if argument && c == 'c' then ([], true)
    else if '0' ≤ c && c ≤ '7' then
      let (d, rest) := if argument && c == '0' then octal 3 rest else octal 3 (c :: rest)
      go d rest
    else
      match letterEscape? c with
      | some d => go d rest
      | none =>
        let (more, ended) := unescape argument fuel rest
        ('\\' :: c :: more, ended)
  | fuel + 1, c :: rest =>
    let (more, ended) := unescape argument fuel rest
    (c :: more, ended)

/-- A width or a precision. -/
inductive Size where
  | absent
  | given (n : Int)
  /-- It is an argument of its own. -/
  | argument

/-- A conversion of a format. -/
structure Conversion where
  flags : List Char
  width : Option Nat
  precision : Option Nat
  kind : Char

/-- A part of a format. -/
inductive Part where
  | text (cs : List Char)
  | conversion (flags : List Char) (width precision : Size) (kind : Char)
  /-- What is no format. -/
  | fault (message : String)

/-- A width or a precision in front, and what follows. -/
def size (cs : List Char) : Size × List Char :=
  match cs with
  | '*' :: rest => (.argument, rest)
  | cs =>
    let (digits, rest) := spanDigits cs
    (if digits.isEmpty then .absent else .given (digitsValue 0 digits), rest)

/-- The conversion behind a percent sign, and what follows. -/
def conversion (cs : List Char) : Part × List Char :=
  let flags := cs.takeWhile fun c => "-+ 0#".toList.contains c
  let (width, rest) := size (cs.drop flags.length)
  let (precision, rest) := match rest with
    | '.' :: rest =>
      match size rest with
      | (.absent, rest) => (.given 0, rest)
      | found => found
    | rest => (.absent, rest)
  match rest with
  | kind :: rest =>
    if "diouxXcsbeEfFgG".toList.contains kind then (.conversion flags width precision kind, rest)
    else
      let read := cs.take (cs.length - rest.length)
      (.fault ("%" ++ String.ofList read ++ ": invalid directive"), [])
  | [] => (.fault "missing format character", [])

/-- The parts of a format. -/
def parts : Nat → List Char → List Part
  | 0, _ => []
  | _, [] => []
  | fuel + 1, '%' :: '%' :: rest => .text ['%'] :: parts fuel rest
  | fuel + 1, '%' :: rest =>
    let (part, rest) := conversion rest
    part :: parts fuel rest
  | fuel + 1, c :: rest =>
    let text := (c :: rest).takeWhile (· != '%')
    .text (unescape false (text.length + 1) text).1 :: parts fuel ((c :: rest).dropWhile (· != '%'))

/-- Fill up to the width of a conversion. -/
def pad (c : Conversion) (zeros : Bool) (sign body : List Char) : List Char :=
  let missing := c.width.getD 0 - (sign.length + body.length)
  if c.flags.contains '-' then sign ++ body ++ List.replicate missing ' '
  else if zeros && c.flags.contains '0' then sign ++ List.replicate missing '0' ++ body
  else List.replicate missing ' ' ++ sign ++ body

/-- At least so many digits. -/
def widen (least : Nat) (digits : List Char) : List Char :=
  List.replicate (least - digits.length) '0' ++ digits

/-- The digits of a number in a base; with a least count of none, zero has none. -/
def digitsIn (base least n : Nat) : List Char :=
  widen least (if n = 0 then [] else Nat.toDigits base n)

/-- The sign that a number is written with. -/
def signOf (c : Conversion) (negative : Bool) : List Char :=
  if negative then ['-'] else if c.flags.contains '+' then ['+']
  else if c.flags.contains ' ' then [' '] else []

/-- A whole number. -/
def integer (c : Conversion) (n : Int) : List Char :=
  let word := (Expression.bits n).toNat
  let least := c.precision.getD 1
  let zeros := c.precision.isNone
  let alternate := c.flags.contains '#'
  match c.kind with
  | 'u' => pad c zeros [] (digitsIn 10 least word)
  | 'o' =>
    let digits := digitsIn 8 least word
    pad c zeros [] (if alternate && digits.head? != some '0' then '0' :: digits else digits)
  | 'x' => pad c zeros (if alternate && n != 0 then ['0', 'x'] else []) (digitsIn 16 least word)
  | 'X' => pad c zeros (if alternate && n != 0 then ['0', 'X'] else [])
      ((digitsIn 16 least word).map Char.toUpper)
  | _ => pad c zeros (signOf c (n < 0)) (digitsIn 10 least n.natAbs)

/-- The quotient of a number by a power of ten, rounded; a half goes to the even neighbour. -/
def scaled (x : Double) (power : Int) : Nat :=
  roundHalfEven (x.ratio.1 * Nat.pow 10 (-power).toNat) (x.ratio.2 * Nat.pow 10 power.toNat)

/-- A number with so many digits behind the point. -/
def fixed (alternate : Bool) (places : Nat) (x : Double) : List Char :=
  let digits := digitsIn 10 (places + 1) (scaled x (-places))
  let whole := digits.take (digits.length - places)
  let fraction := digits.drop whole.length
  if fraction.isEmpty && !alternate then whole else whole ++ '.' :: fraction

/-- The power of ten of the first digit of a number. -/
def firstPower (x : Double) : Int :=
  let big := x.ratio.1 * Nat.pow 10 400 / x.ratio.2
  if big = 0 then 0 else (Nat.toDigits 10 big).length - 401

/-- The digits of a number, one and so many others, and the power of ten of the first one. -/
def leading (places : Nat) (x : Double) : Nat × Int :=
  let power := firstPower x
  let n := scaled x (power - places)
  if n < Nat.pow 10 (places + 1) then (n, power) else (n / 10, power + 1)

/-- A number as digits and a power of ten. -/
def exponential (alternate : Bool) (places : Nat) (x : Double) : List Char :=
  let (n, power) := leading places x
  let digits := digitsIn 10 (places + 1) n
  let fraction := digits.drop 1
  let point := if fraction.isEmpty && !alternate then [] else ['.']
  digits.take 1 ++ point ++ fraction ++ 'e' :: (if power < 0 then '-' else '+') ::
    digitsIn 10 2 power.natAbs

/-- Drop the zeros at the end of a fraction. -/
def dropZeros (cs : List Char) : List Char :=
  if cs.contains '.' then
    match cs.reverse.dropWhile (· == '0') with
    | '.' :: rest => rest.reverse
    | rest => rest.reverse
  else cs

/-- A number with so many digits in all, in the shorter one of the two forms. -/
def general (alternate : Bool) (count : Nat) (x : Double) : List Char :=
  let count := max count 1
  let power := (leading (count - 1) x).2
  let shorten (cs : List Char) : List Char := if alternate then cs else dropZeros cs
  if -4 ≤ power ∧ power < count then shorten (fixed alternate ((count : Int) - 1 - power).toNat x)
  else
    let cs := exponential alternate (count - 1) x
    shorten (cs.takeWhile (· != 'e')) ++ cs.dropWhile (· != 'e')

/-- A real number. -/
def real (c : Conversion) (r : Real64) : List Char :=
  let upper := c.kind.isUpper
  let shown (cs : List Char) : List Char := if upper then cs.map Char.toUpper else cs
  match r with
  | .finite x =>
    let places := c.precision.getD 6
    let alternate := c.flags.contains '#'
    let body := match c.kind.toLower with
      | 'e' => exponential alternate places x
      | 'g' => general alternate places x
      | _ => fixed alternate places x
    pad c true (signOf c x.negative) (shown body)
  | .infinite negative => pad c false (signOf c negative) (shown "inf".toList)
  | .nan => pad c false (signOf c false) (shown "nan".toList)

/-- The complaint about a number of which so much was not read. -/
def complaint? (arg rest : List Char) (isNone : Bool) : Option String :=
  let said := String.ofList arg ++ ": "
  if isNone then some (said ++ "expected numeric value")
  else if rest.isEmpty then none
  else some (said ++ "not completely converted")

/-- The whole number that an argument denotes, and what is wrong with it. -/
def wholeArgument (arg : List Char) : Int × Option String :=
  match arg with
  | '\'' :: rest => (((rest.head?.map Char.toNat).getD 0 : Nat), none)
  | '"' :: rest => (((rest.head?.map Char.toNat).getD 0 : Nat), none)
  | [] => (0, none)
  | arg =>
    match signed? arg with
    | none => (0, complaint? arg [] true)
    | some (n, rest) =>
      let digits := (arg.filter isDigit).length
      if rest.isEmpty && 18 < digits && (n = Int.pow 2 63 - 1 || n = -Int.pow 2 63) then
        (n, some (String.ofList arg ++ ": Numerical result out of range"))
      else (n, complaint? arg rest false)

/-- The real number that an argument denotes, and what is wrong with it. -/
def realArgument (arg : List Char) : Real64 × Option String :=
  let zero : Real64 := .finite (.zero false)
  match arg with
  | '\'' :: rest => (.finite (.ofNat ((rest.head?.map Char.toNat).getD 0)), none)
  | '"' :: rest => (.finite (.ofNat ((rest.head?.map Char.toNat).getD 0)), none)
  | [] => (zero, none)
  | arg =>
    let text := arg.dropWhile Char.isWhitespace
    let read (n : Nat) : Option (Real64 × Nat) :=
      (Real64.read? (String.ofList (text.take n))).map (·, n)
    match text with
    | '0' :: 'x' :: d :: rest =>
      let (digits, rest) := spanBase 16 (d :: rest)
      (.finite (.ofNat (valueIn 16 digits)), complaint? arg rest digits.isEmpty)
    | text =>
      match (List.range (text.length + 1)).reverse.findSome? read with
      | some (r, n) => (r, complaint? arg (text.drop n) false)
      | none => (zero, complaint? arg [] true)

/-- What was written so far, from what arguments were left, and how it went. -/
structure Printed where
  text : List Char := []
  left : List String
  complaints : List String := []
  ended : Bool := false
  /-- The format is none. -/
  broken : Bool := false

namespace Printed

/-- Take an argument; a missing one is empty. -/
def argument (p : Printed) : List Char × Printed :=
  ((p.left.head?.getD "").toList, { p with left := p.left.tail })

/-- Take a width or a precision. -/
def size (p : Printed) : Size → Option Int × Printed
  | .absent => (none, p)
  | .given n => (some n, p)
  | .argument =>
    let (arg, p) := p.argument
    let (n, complaint) := wholeArgument arg
    (some n, { p with complaints := p.complaints ++ complaint.toList })

/-- Write a part of a format. -/
def add (p : Printed) (part : Part) : Printed :=
  if p.ended || p.broken then p
  else
    match part with
    | .text cs => { p with text := p.text ++ cs }
    | .fault message => { p with complaints := p.complaints ++ [message], broken := true }
    | .conversion flags width precision kind =>
      let (width, p) := p.size width
      let (precision, p) := p.size precision
      let flags := if width.any (· < 0) then '-' :: flags else flags
      let c : Conversion :=
        { flags, width := width.map Int.natAbs
          precision := (precision.filter (0 ≤ ·)).map Int.toNat, kind }
      let (arg, p) := p.argument
      let shown (cs : List Char) : List Char := (c.precision.elim cs (cs.take ·))
      let numeric (cs : List Char) (complaint : Option String) : Printed :=
        { p with text := p.text ++ cs, complaints := p.complaints ++ complaint.toList }
      match kind with
      | 's' => { p with text := p.text ++ pad c false [] (shown arg) }
      | 'c' => { p with text := p.text ++ pad c false [] [arg.headD '\x00'] }
      | 'b' =>
        let (cs, ended) := unescape true (arg.length + 1) arg
        { p with text := p.text ++ pad c false [] (shown cs), ended }
      | _ =>
        if "eEfFgG".toList.contains kind then
          let (r, complaint) := realArgument arg
          numeric (real c r) complaint
        else
          let (n, complaint) := wholeArgument arg
          numeric (integer c n) complaint

/-- Write the parts of a format, and again while arguments are left. -/
def addAll (format : List Part) : Nat → Printed → Printed
  | 0, p => p
  | fuel + 1, p =>
    let after := format.foldl add p
    if after.ended || after.broken || after.left.isEmpty || after.left.length = p.left.length then
      after
    else addAll format fuel after

/-- The status that a command which wrote this ends with. -/
def status (p : Printed) : Nat :=
  if p.broken then 2 else if p.complaints.isEmpty then 0 else 1

end Printed

end Format

/-- What `printf` writes. -/
def printf (format : String) (args : List String) : Format.Printed :=
  let parts := Format.parts (format.length + 1) format.toList
  Format.Printed.addAll parts (args.length + 1) { left := args }

/-- What `echo` writes. -/
def echo (args : List String) : List Char :=
  let (newline, args) := match args with
    | "-n" :: rest => (false, rest)
    | args => (true, args)
  let text := (" ".intercalate args).toList
  let (written, ended) := Format.unescape true (text.length + 1) text
  if newline && !ended then written ++ ['\n'] else written

end Flowline.Shell
