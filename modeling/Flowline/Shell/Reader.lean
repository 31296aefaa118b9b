import Flowline.Json.Basic
import Flowline.Shell.Syntax
import Flowline.Text.Search

/-!
# Reading commands

A script is read command by command, so that what one command does, such as the definition of an
alias, takes effect before the next one is read. A word ends at a blank or an operator outside of
quotes and expansions; the commands inside an expansion are read together with the word. The text
of a here document begins behind the end of the line that asks for it.
-/

namespace Flowline.Shell

/-- A token. -/
inductive Token where
  | word (w : Word)
  /-- A redirection, with the number of its stream if one is given. -/
  | redirect (stream : Option Nat) (operator : String)
  | operator (s : String)
  | newline
  | ending

/-- Why a text is no command. -/
inductive ReadFault where
  | unexpected (found : String) (expected : Option String)
  | openQuote
  | openBackquote
  | openBraces
  | openArithmetic
  | badFunctionName
  | badLoopVariable
  /-- Commands are nested too deeply. -/
  | tooDeep

/-- The fault in words. -/
def ReadFault.message : ReadFault → String
  | unexpected found none => found ++ " unexpected"
  | unexpected found (some expected) => found ++ " unexpected (expecting " ++ expected ++ ")"
  | openQuote => "Unterminated quoted string"
  | openBackquote => "EOF in backquote substitution"
  | openBraces => "Missing '\x7d'"
  | openArithmetic => "Missing '))'"
  | badFunctionName => "Bad function name"
  | badLoopVariable => "Bad for loop variable"
  | tooDeep => "Too many nested commands"

/-- A here document whose text is to come. -/
structure HereDocument where
  number : Nat
  mark : List Char
  stripTabs : Bool
  /-- Expansions are made in the text. -/
  expands : Bool

/-- An alias whose text is being read: its name, how much of the text follows it, and whether the
word behind it may be an alias too. -/
structure AliasUse where
  name : String
  behind : Nat
  goesOn : Bool

/-- A script in the course of reading. -/
structure Reader where
  rest : List Char
  line : Nat := 1
  /-- A token that was looked at, but not taken. -/
  ahead : Option Token := none
  aliases : Entries String := []
  inUse : List AliasUse := []
  pending : List HereDocument := []
  /-- The texts of the here documents, by number. -/
  bodies : Array Word := #[]

/-- Reading from a script, which may fail at some place of it. -/
abbrev Reading := ExceptT ReadFault (StateM Reader)

/-- Where the parts of a word stand. -/
inductive Surrounding where
  | bare
  /-- In the braces of a parameter outside of quotes, or in a pattern there. -/
  | bareBraces
  | quotes
  /-- In the braces of a parameter inside quotes; `inner` tells that a quote is open in them. -/
  | quotedBraces (inner : Bool)
  /-- In the text of a here document. -/
  | document
  /-- In an arithmetic expression, in so many brackets. -/
  | arithmetic (depth : Nat)

namespace Surrounding

/-- The parts are quoted. -/
def isQuoted : Surrounding → Bool
  | bare | bareBraces => false
  | _ => true

/-- The fault if the script ends here. -/
def fault? : Surrounding → Option ReadFault
  | bare | document => none
  | quotes | quotedBraces _ => some .openQuote
  | bareBraces => some .openBraces
  | arithmetic _ => some .openArithmetic

/-- The character ends the parts when another one follows. -/
def endsAt (s : Surrounding) (c : Char) (next : Option Char) : Bool :=
  match s with
  | bare => " \t\n;&|<>()".toList.contains c
  | bareBraces => c == '\x7d'
  | quotes => c == '"'
  | quotedBraces inner => c == '\x7d' && !inner
  | document => false
  | arithmetic depth => c == ')' && depth == 0 && next == some ')'

/-- A backslash only protects the character. -/
def protects (s : Surrounding) (c : Char) : Bool :=
  c == '\\' || c == '`' || c == '$' ||
    match s with
    | bare | bareBraces => true
    | document => false
    | quotedBraces _ => c == '"' || c == '\x7d'
    | _ => c == '"'

end Surrounding

/-- How a list of commands may end. -/
inductive ListEnd where
  /-- At the end of a line. -/
  | line
  /-- At a word or operator that closes a command. -/
  | block
  /-- Like `block`; the list may be empty. -/
  | emptyBlock
deriving DecidableEq

namespace Token

/-- The word that the token is, if it is reserved. -/
def reserved? : Token → Option String
  | word w => w.plain?.filter reservedWords.contains
  | _ => none

/-- The token in words. -/
def describe (t : Token) : String :=
  match t, t.reserved? with
  | _, some s => "\"" ++ s ++ "\""
  | word _, none => "word"
  | redirect .., _ => "redirection"
  | operator s, _ => "\"" ++ s ++ "\""
  | newline, _ => "newline"
  | ending, _ => "end of file"

/-- The token closes a list of commands. -/
def closes (t : Token) : Bool :=
  match t, t.reserved? with
  | operator s, _ => s == ")" || s == ";;"
  | _, some s =>
    ["\x7d", "do", "done", "elif", "else", "esac", "fi", "then"].contains s
  | _, none => false

end Token

/-- Drop ends of lines behind a backslash. -/
def dropJoins : List Char → List Char
  | '\\' :: '\n' :: rest => dropJoins rest
  | cs => cs

/-- The characters of a kind in front, without joined ends of lines, and what follows. -/
def spanJoined (p : Char → Bool) : List Char → List Char × List Char
  | '\\' :: '\n' :: rest => spanJoined p rest
  | c :: rest =>
    if p c then
      let (taken, rest) := spanJoined p rest
      (c :: taken, rest)
    else ([], c :: rest)
  | [] => ([], [])

/-- Drop blanks, joined ends of lines and a comment. -/
def dropBlanks : List Char → List Char
  | '\\' :: '\n' :: rest => dropBlanks rest
  | ' ' :: rest => dropBlanks rest
  | '\t' :: rest => dropBlanks rest
  | '#' :: rest => rest.dropWhile (· != '\n')
  | cs => cs

/-- A part in front of others; neighbouring texts become one. -/
def joinParts (part : WordPart) (parts : Word) : Word :=
  match part, parts with
  | .text cs q, .text ds q' :: rest =>
    if q == q' then .text (cs ++ ds) q :: rest else part :: parts
  | _, _ => part :: parts

/-- What stands before the back quote that ends a substitution, without the backslashes that
protect characters there, and behind it. -/
def untilBackquote (quoted : Bool) : List Char → Option (List Char × List Char)
  | [] => none
  | '`' :: rest => some ([], rest)
  | '\\' :: '\n' :: rest => untilBackquote quoted rest
  | '\\' :: c :: rest =>
    let bare := c == '`' || c == '$' || c == '\\' || (quoted && c == '"')
    (untilBackquote quoted rest).map fun r => (if bare then c :: r.1 else '\\' :: c :: r.1, r.2)
  | c :: rest => (untilBackquote quoted rest).map fun r => (c :: r.1, r.2)

/-- The lines of a here document, and those behind it; `joined` tells that the line before ended
in a backslash. -/
def documentLines (d : HereDocument) (joined : Bool) :
    List (List Char) → List (List Char) × List (List Char)
  | [] => ([], [])
  | line :: rest =>
    let line := if d.stripTabs && !joined then line.dropWhile (· == '\t') else line
    if line = d.mark && !joined then ([], rest)
    else
      let joins := d.expands && (line.reverse.takeWhile (· == '\\')).length % 2 == 1
      let (lines, rest) := documentLines d joins rest
      (line :: lines, rest)

namespace Reader

/-- Go on with a later part of the text. -/
def advance (r : Reader) (rest : List Char) : Reader :=
  let read := r.rest.take (r.rest.length - rest.length)
  { r with rest, line := r.line + read.count '\n' }

/-- The aliases whose text is not read to its end. -/
def aliasesInUse (r : Reader) : List AliasUse :=
  r.inUse.filter fun u => u.behind ≤ r.rest.length

/-- The word that follows may be an alias, because it follows one that says so. -/
def followsAlias (r : Reader) : Bool :=
  r.inUse.any fun u => u.goesOn && (dropBlanks r.rest).length ≤ u.behind

end Reader

namespace Reading

/-- The next character, joined ends of lines apart. -/
def peekChar : Reading (Option Char) := do
  match (← get).rest with
  | '\\' :: _ =>
    modify fun r => r.advance (dropJoins r.rest)
    return (← get).rest.head?
  | rest => return rest.head?

/-- Take the next character as it stands. -/
def popChar : Reading (Option Char) := do
  let r ← get
  match r.rest with
  | [] => return none
  | c :: rest =>
    set { r with rest, line := if c == '\n' then r.line + 1 else r.line }
    return some c

/-- Take characters of a kind. -/
def takeChars (p : Char → Bool) : Reading (List Char) := do
  let r ← get
  let (taken, rest) := spanJoined p r.rest
  set (r.advance rest)
  return taken

/-- Take a character if it is the next one. -/
def takeChar (c : Char) : Reading Bool := do
  if (← peekChar) == some c then
    discard popChar
    return true
  else return false

/-- Take the token that was looked at. -/
def drop : Reading Unit := modify fun r => { r with ahead := none }

/-- The token is not one that may stand here. -/
def unexpected {α : Type} (t : Token) (expected : Option String) : Reading α :=
  throw (.unexpected t.describe (expected.map fun s => "\"" ++ s ++ "\""))

/-- Read a text apart, with what is known here. -/
def apart {α : Type} (text : List Char) (reading : Reading α) : Reading α := do
  let r ← get
  set { r with rest := text, ahead := none, inUse := [], pending := [] }
  let a ← reading
  modify fun r' => { r' with rest := r.rest, line := r.line, ahead := r.ahead, inUse := r.inUse
                             pending := r.pending }
  return a

/-- The operator of a redirection, of which the first character is known. -/
def redirection (first : Char) : Reading String := do
  discard popChar
  if first == '<' then
    if ← takeChar '<' then return if ← takeChar '-' then "<<-" else "<<"
    else if ← takeChar '&' then return "<&"
    else return if ← takeChar '>' then "<>" else "<"
  else if ← takeChar '>' then return ">>"
  else if ← takeChar '&' then return ">&"
  else return if ← takeChar '|' then ">|" else ">"

/-- The operator that begins with a character, if one does. -/
def operator? (c : Char) : Reading (Option String) := do
  let single := String.singleton c
  if c == '(' || c == ')' then
    discard popChar
    return some single
  else if c == '&' || c == '|' || c == ';' then
    discard popChar
    return some (if ← takeChar c then single ++ single else single)
  else return none

/-- The use of a parameter behind its name, and whether it has a word; none is no use. -/
def parameterUse : Reading (Option (ParameterUse × Bool × Bool)) := do
  let simple (c : Option Char) : Option ParameterUse :=
    match c with
    | some '-' => some .orElse
    | some '=' => some .orAssign
    | some '?' => some .orFail
    | some '+' => some .instead
    | _ => none
  match ← peekChar with
  | some '\x7d' => return some (.value, false, false)
  | some ':' =>
    discard popChar
    let c ← peekChar
    match simple c with
    | some use =>
      discard popChar
      return some (use, true, true)
    | none => if c == some '\x7d' then throw .openBraces else return none
  | some '%' =>
    discard popChar
    return some (.cutBack (← takeChar '%'), false, true)
  | some '#' =>
    discard popChar
    return some (.cutFront (← takeChar '#'), false, true)
  | c =>
    match simple c with
    | some use =>
      discard popChar
      return some (use, false, true)
    | none => return none

/-- The name of a parameter in braces, and whether its length is meant. -/
def parameterName : Reading (Option (String × Bool)) := do
  let named (length : Bool) : Reading (Option (String × Bool)) := do
    match ← peekChar with
    | none => return none
    | some c =>
      if beginsName c then return some (String.ofList (← takeChars inName), length)
      else if c.isDigit then return some (String.ofList (← takeChars Char.isDigit), length)
      else if isSpecialName c then
        discard popChar
        return some (String.singleton c, length)
      else return none
  if (← peekChar) != some '#' then named false
  else
    match (← get).rest with
    | '#' :: c :: d :: _ =>
      if inName c || (isSpecialName c && d == '\x7d') then
        discard popChar
        named true
      else named false
    | _ => named false

mutual

/-- The parts of a word, up to what ends them. -/
def parts : Nat → Surrounding → Reading Word
  | 0, _ => throw .tooDeep
  | fuel + 1, s => do
    match ← peekChar with
    | none =>
      match s.fault? with
      | some fault => throw fault
      | none => return []
    | some c =>
      if s.endsAt c (← get).rest.tail.head? then return []
      discard popChar
      match c, s with
      | '\\', s =>
        match ← popChar with
        | none => return [.text ['\\'] true]
        | some d =>
          let kept := if s.protects d then [d] else ['\\', d]
          return joinParts (.text kept true) (← parts fuel s)
      | '\'', .bare | '\'', .bareBraces =>
        let inside ← takeUntilQuote
        return joinParts (.text inside true) (← parts fuel s)
      | '"', .bare | '"', .bareBraces =>
        let inside ← parts fuel .quotes
        discard popChar
        let inside := match inside with
          | [.parameter "@" .value false [] true] => inside
          | _ => joinParts (.text [] true) inside
        return inside.foldr joinParts (← parts fuel s)
      | '"', .quotedBraces inner => parts fuel (.quotedBraces !inner)
      | '$', s =>
        let part ← dollar fuel s.isQuoted
        return joinParts part (← parts fuel s)
      | '`', s =>
        let body ← backquoted fuel s.isQuoted
        return .output body s.isQuoted :: (← parts fuel s)
      | '(', .arithmetic depth =>
        return joinParts (.text ['('] true) (← parts fuel (.arithmetic (depth + 1)))
      | ')', .arithmetic depth =>
        return joinParts (.text [')'] true) (← parts fuel (.arithmetic (depth - 1)))
      | c, s => return joinParts (.text [c] s.isQuoted) (← parts fuel s)
where
  /-- The characters before the single quote that ends a quotation. -/
  takeUntilQuote : Reading (List Char) := do
    let r ← get
    match r.rest.dropWhile (· != '\'') with
    | _ :: rest =>
      set (r.advance rest)
      return r.rest.takeWhile (· != '\'')
    | [] =>
      set (r.advance [])
      throw .openQuote

/-- The expansion behind a dollar sign. -/
def dollar : Nat → Bool → Reading WordPart
  | 0, _ => throw .tooDeep
  | fuel + 1, quoted => do
    match ← peekChar with
    | some '(' =>
      discard popChar
      if ← takeChar '(' then
        let source ← parts fuel (.arithmetic 0)
        discard popChar
        discard popChar
        return .arithmetic source quoted
      else
        let pending := (← get).pending
        modify fun r => { r with pending := [] }
        let body ← commands fuel .emptyBlock
        match ← token fuel with
        | .operator ")" => drop
        | t => unexpected t (some ")")
        modify fun r => { r with pending }
        return .output body quoted
    | some '\x7b' =>
      discard popChar
      braces fuel quoted
    | some c =>
      if beginsName c then
        return .parameter (String.ofList (← takeChars inName)) .value false [] quoted
      else if c.isDigit || isSpecialName c then
        discard popChar
        return .parameter (String.singleton c) .value false [] quoted
      else return .text ['$'] quoted
    | none => return .text ['$'] quoted

/-- A parameter behind its opening brace. -/
def braces : Nat → Bool → Reading WordPart
  | 0, _ => throw .tooDeep
  | fuel + 1, quoted => do
    let name ← parameterName
    let use ← match name with
      | some (_, false) => parameterUse
      | some (_, true) => pure (some (.length, false, false))
      | none => pure none
    let s : Surrounding := match use with
      | some (.cutFront _, _) | some (.cutBack _, _) => .bareBraces
      | _ => if quoted then .quotedBraces false else .bareBraces
    let word ← parts fuel s
    discard popChar
    match name, use with
    | some (name, _), some (use, colon, hasWord) =>
      if hasWord || word.isEmpty then return .parameter name use colon word quoted
      else return .badParameter
    | _, _ => return .badParameter

/-- The commands up to the back quote that ends them. -/
def backquoted : Nat → Bool → Reading (Option Command)
  | 0, _ => throw .tooDeep
  | fuel + 1, quoted => do
    let r ← get
    match untilBackquote quoted r.rest with
    | none => throw .openBackquote
    | some (text, rest) =>
      set (r.advance rest)
      apart text (commands fuel .emptyBlock)

/-- Read the texts of the here documents that were asked for on the line that ends here. -/
def documents : Nat → List HereDocument → Reading Unit
  | 0, _ => throw .tooDeep
  | _, [] => modify fun r => { r with pending := [] }
  | fuel + 1, d :: more => do
    let r ← get
    let lines := splitEach '\n' r.rest
    let (inside, rest) := documentLines d false lines
    set (r.advance ("\n".toList.intercalate rest))
    let last := if inside.length < lines.length then ['\n'] else []
    let text := if inside.isEmpty then [] else "\n".toList.intercalate inside ++ last
    let body ← if d.expands then apart text (parts fuel .document) else pure [.text text true]
    modify fun r => { r with bodies := r.bodies.set! d.number body }
    documents fuel more

/-- The next token. -/
def token : Nat → Reading Token
  | 0 => throw .tooDeep
  | fuel + 1 => do
    match (← get).ahead with
    | some t => return t
    | none =>
      modify fun r => r.advance (dropBlanks r.rest)
      let t ← lex fuel
      modify fun r => { r with ahead := some t }
      return t

/-- Read a token that begins here. -/
def lex : Nat → Reading Token
  | 0 => throw .tooDeep
  | fuel + 1 => do
    match ← peekChar with
    | none => return .ending
    | some '\n' =>
      discard popChar
      documents fuel (← get).pending
      return .newline
    | some c =>
      match ← operator? c with
      | some s => return .operator s
      | none =>
        if c == '<' || c == '>' then return .redirect none (← redirection c)
        let w ← parts fuel .bare
        match w.plain?.map String.toList, ← peekChar with
        | some [d], some c =>
          if d.isDigit && (c == '<' || c == '>') then
            return .redirect (some (d.toNat - '0'.toNat)) (← redirection c)
          else return .word w
        | _, _ => return .word w

/-- The next token where a command may begin, or at least an alias. -/
def commandToken : Nat → Bool → Reading Token
  | 0, _ => throw .tooDeep
  | fuel + 1, skipLines => do
    let t ← token fuel
    match t with
    | .newline =>
      if skipLines then
        drop
        commandToken fuel true
      else return t
    | .word w =>
      match w.plain?.filter fun s => !reservedWords.contains s with
      | none => return t
      | some name =>
        let r ← get
        match r.aliases.get? name with
        | none => return t
        | some text =>
          let inUse := r.aliasesInUse
          if inUse.any (·.name == name) then return t
          let goesOn := match text.toList.getLast? with
            | some c => c == ' ' || c == '\t'
            | none => false
          set { r with ahead := none, rest := text.toList ++ r.rest
                       inUse := ⟨name, r.rest.length, goesOn⟩ :: inUse }
          commandToken fuel skipLines
    | _ => return t

/-- A list of commands, if there are any. -/
def commands : Nat → ListEnd → Reading (Option Command)
  | 0, _ => throw .tooDeep
  | fuel + 1, ending => moreCommands fuel ending none

/-- A list of commands behind others. -/
def moreCommands : Nat → ListEnd → Option Command → Reading (Option Command)
  | 0, _, _ => throw .tooDeep
  | fuel + 1, ending, before => do
    let t ← commandToken fuel (ending != .line)
    match t with
    | .newline =>
      drop
      return before
    | .ending => return before
    | t =>
      if t.closes && (ending = .emptyBlock || (ending = .block && before.isSome)) then
        return before
      let first ← chain fuel
      let t ← token fuel
      let found := match t with
        | .operator "&" => .background first
        | _ => first
      let all := some (match before with
        | some before => .sequence before found
        | none => found)
      match t with
      | .operator ";" | .operator "&" =>
        drop
        moreCommands fuel ending all
      | .newline | .ending => moreCommands fuel ending all
      | t => if ending = .line then unexpected t none else return all

/-- Commands joined by `&&` and `||`. -/
def chain : Nat → Reading Command
  | 0 => throw .tooDeep
  | fuel + 1 => do links fuel (← pipeline fuel)

/-- The links of a chain behind its first command. -/
def links : Nat → Command → Reading Command
  | 0, _ => throw .tooDeep
  | fuel + 1, first => do
    match ← token fuel with
    | .operator "&&" =>
      drop
      discard (commandToken fuel true)
      links fuel (.both first (← pipeline fuel))
    | .operator "||" =>
      drop
      discard (commandToken fuel true)
      links fuel (.either first (← pipeline fuel))
    | _ => return first

/-- A pipeline, which may be negated. -/
def pipeline : Nat → Reading Command
  | 0 => throw .tooDeep
  | fuel + 1 => do
    let negated := (← commandToken fuel false).reserved? == some "!"
    if negated then drop
    let found ← match ← piped fuel with
      | [single] => pure single
      | parts => pure (.pipeline parts)
    return if negated then .negated found else found

/-- The commands of a pipeline. -/
def piped : Nat → Reading (List Command)
  | 0 => throw .tooDeep
  | fuel + 1 => do
    let first ← command fuel
    match ← token fuel with
    | .operator "|" =>
      drop
      discard (commandToken fuel true)
      return first :: (← piped fuel)
    | _ => return [first]

/-- Take a reserved word. -/
def expect : Nat → String → Reading Unit
  | 0, _ => throw .tooDeep
  | fuel + 1, s => do
    let t ← token fuel
    if t.reserved? == some s then drop else unexpected t (some s)

/-- Take a closing bracket where no word is reserved. -/
def expectClosing : Nat → Reading Unit
  | 0 => throw .tooDeep
  | fuel + 1 => do
    match ← token fuel with
    | .operator ")" => drop
    | .word _ => throw (.unexpected "word" (some "\")\""))
    | t => unexpected t (some ")")

/-- Take an operator. -/
def expectOperator : Nat → String → Reading Unit
  | 0, _ => throw .tooDeep
  | fuel + 1, s => do
    match ← token fuel with
    | .operator s' => if s == s' then drop else unexpected (.operator s') (some s)
    | t => unexpected t (some s)

/-- A list of commands that is not empty, before a word or operator that closes it. -/
def block : Nat → String → Reading Command
  | 0, _ => throw .tooDeep
  | fuel + 1, closing => do
    match ← commands fuel .block with
    | some c => return c
    | none => unexpected (← token fuel) (some closing)

/-- A single command. -/
def command : Nat → Reading Command
  | 0 => throw .tooDeep
  | fuel + 1 => do
    let t ← commandToken fuel false
    match t, t.reserved? with
    | .operator "(", _ =>
      drop
      let body ← block fuel ")"
      expectOperator fuel ")"
      withRedirects fuel (.subshell body)
    | .redirect .., _ | .word _, none => simple fuel [] [] []
    | _, some "\x7b" =>
      drop
      let body ← block fuel "\x7d"
      expect fuel "\x7d"
      withRedirects fuel body
    | _, some "if" =>
      drop
      withRedirects fuel (← branches fuel)
    | _, some "while" =>
      drop
      withRedirects fuel (← loop fuel false)
    | _, some "until" =>
      drop
      withRedirects fuel (← loop fuel true)
    | _, some "for" =>
      drop
      withRedirects fuel (← each fuel)
    | _, some "case" =>
      drop
      withRedirects fuel (← choice fuel)
    | t, _ => unexpected t none

/-- The branches of a conditional, behind its first word. -/
def branches : Nat → Reading Command
  | 0 => throw .tooDeep
  | fuel + 1 => do
    let test ← block fuel "then"
    expect fuel "then"
    let body ← block fuel "fi"
    let t ← token fuel
    match t.reserved? with
    | some "elif" =>
      drop
      return .conditional test body (some (← branches fuel))
    | some "else" =>
      drop
      let other ← block fuel "fi"
      expect fuel "fi"
      return .conditional test body (some other)
    | _ =>
      expect fuel "fi"
      return .conditional test body none

/-- A loop with a test, behind its first word. -/
def loop : Nat → Bool → Reading Command
  | 0, _ => throw .tooDeep
  | fuel + 1, inverted => do
    let test ← block fuel "do"
    expect fuel "do"
    let body ← block fuel "done"
    expect fuel "done"
    return .loop inverted test body

/-- The words up to another token. -/
def wordList : Nat → Reading (List Word)
  | 0 => throw .tooDeep
  | fuel + 1 => do
    match ← token fuel with
    | .word w =>
      drop
      return w :: (← wordList fuel)
    | _ => return []

/-- A loop over words, behind its first word. -/
def each : Nat → Reading Command
  | 0 => throw .tooDeep
  | fuel + 1 => do
    match ← token fuel with
    | .word w =>
      match w.plain?.filter isName with
      | none => throw .badLoopVariable
      | some name =>
        drop
        let t ← commandToken fuel true
        let words ← if t.reserved? == some "in" then do
            drop
            let words ← wordList fuel
            match ← token fuel with
            | .newline | .operator ";" => drop
            | t => unexpected t none
            pure (some words)
          else do
            match t with
            | .operator ";" => drop
            | _ => pure ()
            pure none
        discard (commandToken fuel true)
        expect fuel "do"
        let body ← block fuel "done"
        expect fuel "done"
        return .each name words body
    | _ => throw .badLoopVariable

/-- A choice, behind its first word. -/
def choice : Nat → Reading Command
  | 0 => throw .tooDeep
  | fuel + 1 => do
    match ← token fuel with
    | .word subject =>
      drop
      discard (commandToken fuel true)
      expect fuel "in"
      return .choice subject (← clauses fuel)
    | t => throw (.unexpected t.describe (some "word"))

/-- Skip ends of lines. -/
def skipLines : Nat → Reading Unit
  | 0 => throw .tooDeep
  | fuel + 1 => do
    match ← token fuel with
    | .newline =>
      drop
      skipLines fuel
    | _ => return

/-- The clauses of a choice, with the word that ends it. -/
def clauses : Nat → Reading (List (List Word × Option Command))
  | 0 => throw .tooDeep
  | fuel + 1 => do
    skipLines fuel
    let t ← token fuel
    if t.reserved? == some "esac" then
      drop
      return []
    match t with
    | .operator "(" => drop
    | _ => pure ()
    let found ← patterns fuel
    let body ← commands fuel .emptyBlock
    skipLines fuel
    let t ← token fuel
    if t.reserved? != some "esac" then expectOperator fuel ";;"
    return (found, body) :: (← clauses fuel)

/-- The patterns of a clause, with the bracket that ends them. Any token counts as a pattern. -/
def patterns : Nat → Reading (List Word)
  | 0 => throw .tooDeep
  | fuel + 1 => do
    let w ← match ← token fuel with
      | .word w => pure w
      | _ => pure []
    drop
    match ← token fuel with
    | .operator "|" =>
      drop
      return w :: (← patterns fuel)
    | _ =>
      expectClosing fuel
      return [w]

/-- The redirection that an operator, which was taken, and the word behind it ask for. -/
def redirectTo : Nat → Option Nat → String → Reading Redirect
  | 0, _, _ => throw .tooDeep
  | fuel + 1, stream, operator => do
    match ← token fuel with
    | .word w =>
      drop
      match operator with
      | "<" => return .file (stream.getD 0) .read w
      | ">" => return .file (stream.getD 1) .write w
      | ">|" => return .file (stream.getD 1) .overwrite w
      | ">>" => return .file (stream.getD 1) .append w
      | "<>" => return .file (stream.getD 0) .readWrite w
      | "<&" => return .duplicate (stream.getD 0) w
      | ">&" => return .duplicate (stream.getD 1) w
      | _ =>
        let r ← get
        let d : HereDocument :=
          { number := r.bodies.size, mark := w.literal, stripTabs := operator == "<<-"
            expands := !w.isQuoted }
        set { r with pending := r.pending ++ [d], bodies := r.bodies.push [] }
        return .here (stream.getD 0) d.number
    | t => unexpected t none

/-- A command under the redirections that follow it. -/
def withRedirects : Nat → Command → Reading Command
  | 0, _ => throw .tooDeep
  | fuel + 1, body => do
    let redirects ← redirectList fuel
    return if redirects.isEmpty then body else .redirected body redirects

/-- The redirections that follow. -/
def redirectList : Nat → Reading (List Redirect)
  | 0 => throw .tooDeep
  | fuel + 1 => do
    match ← token fuel with
    | .redirect stream operator =>
      drop
      let r ← redirectTo fuel stream operator
      return r :: (← redirectList fuel)
    | _ => return []

/-- A simple command, or the definition of a function, of which a part is read. -/
def simple : Nat → List (String × Word) → List Word → List Redirect → Reading Command
  | 0, _, _, _ => throw .tooDeep
  | fuel + 1, assignments, words, redirects => do
    let r ← get
    let mayBeAlias := words.isEmpty || (r.ahead.isNone && r.followsAlias)
    let line := r.line
    let t ← if mayBeAlias then commandToken fuel false else token fuel
    match t with
    | .word w =>
      drop
      match words, w.assignment? with
      | [], some a => simple fuel (assignments ++ [a]) words redirects
      | _, _ => simple fuel assignments (words ++ [w]) redirects
    | .redirect stream operator =>
      drop
      let r ← redirectTo fuel stream operator
      simple fuel assignments words (redirects ++ [r])
    | .operator "(" =>
      match assignments, words, redirects with
      | [], [w], [] =>
        drop
        expectClosing fuel
        match w.plain?.filter fun s => isName s && !specialCommands.contains s with
        | none => throw .badFunctionName
        | some name =>
          discard (commandToken fuel true)
          return .define name (← command fuel)
      | _, _, _ => return .simple line assignments words redirects
    | _ => return .simple line assignments words redirects

end

/-- The next command of a script, with an empty line as none. At the end of the script there is
nothing. -/
def next (fuel : Nat) : Reading (Option (Option Command)) := do
  match ← token fuel with
  | .ending => return none
  | _ => return some (← commands fuel .line)

end Reading

/-- How deeply the commands of a text may be nested while they are read. -/
def Reader.depth (r : Reader) : Nat := 40 * r.rest.length + 100000

end Flowline.Shell
