/-!
# Commands of a shell

The syntax of the shell that runs the commands of nodes. A word is a list of parts that are
expanded when the command runs. A text of the shell has one character for each byte.
-/

namespace Flowline.Shell

/-- What is done with the value of a parameter. -/
inductive ParameterUse where
  | value
  | length
  /-- The word takes the place of a missing value. -/
  | orElse
  /-- The same, and becomes the value. -/
  | orAssign
  /-- A missing value is an error. -/
  | orFail
  /-- The word takes the place of a value. -/
  | instead
  /-- What a pattern stands for at the beginning is cut off. -/
  | cutFront (longest : Bool)
  /-- What a pattern stands for at the end is cut off. -/
  | cutBack (longest : Bool)
deriving DecidableEq

/-- How a file is opened. -/
inductive OpenMode where
  | read
  | write
  /-- Like `write`, also onto a file that must not be overwritten. -/
  | overwrite
  | append
  | readWrite
deriving DecidableEq

mutual

/-- A part of a word. -/
inductive WordPart where
  | text (cs : List Char) (quoted : Bool)
  /-- The value of a parameter; with `colon`, an empty value counts as missing. -/
  | parameter (name : String) (use : ParameterUse) (colon : Bool) (word : List WordPart)
    (quoted : Bool)
  /-- Braces that hold no parameter. -/
  | badParameter
  /-- The output of commands. -/
  | output (body : Option Command) (quoted : Bool)
  /-- The value of an arithmetic expression. -/
  | arithmetic (source : List WordPart) (quoted : Bool)

/-- A redirection of a stream. -/
inductive Redirect where
  | file (stream : Nat) (mode : OpenMode) (target : List WordPart)
  /-- Make a stream a copy of another one, or close it. -/
  | duplicate (stream : Nat) (target : List WordPart)
  /-- Read a text in the script, by its number. -/
  | here (stream : Nat) (number : Nat)

/-- A command. -/
inductive Command where
  /-- Assignments, then the words of a command, under redirections; the line counts from one. -/
  | simple (line : Nat) (assignments : List (String × List WordPart))
    (words : List (List WordPart)) (redirects : List Redirect)
  | redirected (body : Command) (redirects : List Redirect)
  /-- Commands of which each reads what the one before it writes. -/
  | pipeline (parts : List Command)
  | negated (body : Command)
  | both (first second : Command)
  | either (first second : Command)
  | sequence (first second : Command)
  /-- A command that is not waited for. -/
  | background (body : Command)
  | subshell (body : Command)
  | conditional (test body : Command) (other : Option Command)
  /-- A loop that goes on while the test ends well or, if `inverted`, while it does not. -/
  | loop (inverted : Bool) (test body : Command)
  /-- A loop over words, or over the arguments. -/
  | each (name : String) (words : Option (List (List WordPart))) (body : Command)
  | choice (subject : List WordPart) (clauses : List (List (List WordPart) × Option Command))
  | define (name : String) (body : Command)

end

/-- A word. -/
abbrev Word := List WordPart

/-- The text of a word without any expansion or quotes. -/
def Word.plain? : Word → Option String
  | [.text cs false] => some (String.ofList cs)
  | _ => none

/-- The text of a word when its expansions are not made. -/
def Word.literal (w : Word) : List Char :=
  w.flatMap fun
    | .text cs _ => cs
    | _ => []

/-- The word is quoted at least in part. -/
def Word.isQuoted (w : Word) : Bool :=
  w.any fun
    | .text _ quoted => quoted
    | _ => false

/-- The character can begin a name. -/
def beginsName (c : Char) : Bool := c.isAlpha || c == '_'

/-- The character can occur in a name. -/
def inName (c : Char) : Bool := c.isAlphanum || c == '_'

/-- The text is a name. -/
def isName (s : String) : Bool :=
  match s.toList with
  | [] => false
  | c :: rest => beginsName c && rest.all inName

/-- The parameters whose name is one special character. -/
def isSpecialName (c : Char) : Bool := "?#@*!$-".toList.contains c

/-- The words that have a meaning of their own where a command begins. -/
def reservedWords : List String :=
  ["!", "\x7b", "\x7d", "case", "do", "done", "elif", "else", "esac", "fi", "for", "if", "in",
    "then", "until", "while"]

/-- The commands that a function cannot replace, and whose failure ends the shell. -/
def specialCommands : List String :=
  [".", ":", "break", "continue", "eval", "exec", "exit", "export", "local", "readonly", "return",
    "set", "shift", "times", "trap", "unset"]

/-- The other commands that are part of the shell. -/
def plainCommands : List String :=
  ["[", "alias", "bg", "cd", "chdir", "command", "echo", "false", "fg", "getopts", "hash", "jobs",
    "kill", "printf", "pwd", "read", "test", "true", "type", "ulimit", "umask", "unalias", "wait"]

/-- The commands whose arguments may be assignments. -/
def assigningCommands : List String := ["export", "local", "readonly"]

/-- The name and the value of an assignment. -/
def Word.assignment? : Word → Option (String × Word)
  | .text cs false :: parts =>
    let name := String.ofList (cs.takeWhile (· != '='))
    match cs.dropWhile (· != '=') with
    | '=' :: value =>
      if isName name then
        some (name, if value.isEmpty then parts else .text value false :: parts)
      else none
    | _ => none
  | _ => none

end Flowline.Shell
