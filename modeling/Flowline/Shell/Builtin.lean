import Flowline.Shell.Fields
import Flowline.Shell.Format
import Flowline.Shell.Jobs
import Flowline.Shell.Test
import Flowline.Shell.Utility

/-!
# Commands of the shell itself

The commands that change or tell something of the process that runs them. Those that run other
commands are not here.
-/

namespace Flowline.Shell

open Script

/-! ## Variables -/

/-- The value of a parameter that is not the list of arguments. -/
def Machine.parameter? (m : Machine) (name : String) : Option String :=
  match name with
  | "#" => some (Json.intText m.arguments.length)
  | "?" => some (Json.intText m.status)
  | "-" => some (String.ofList m.options)
  | "$" => some (Json.intText 1000)
  | "!" => m.lastJob.map fun n => Json.intText (1000 + n)
  | "0" => some m.name
  | name =>
    match readNat? maxWord64 name with
    | some n => m.arguments[n - 1]?
    | none => m.value? name

/-- Put a variable. -/
def assign (name value : String) : Script Unit := do
  let m ← get
  let v := (m.variables.get? name).getD {}
  if v.readOnly then die (name ++ ": is read only")
  else
    let exported := v.exported || m.has 'a'
    set { m with «variables» := m.variables.put name { v with value := some value, exported }
                 tracked := if name == "PATH" then [] else m.tracked
                 optionOffset := if name == "OPTIND" then none else m.optionOffset
                 optionNumber := if name == "OPTIND" then max 1 ((smallNumber? value).getD 1)
                   else m.optionNumber }

/-- The variables that a shell has of its own, unless it finds them when it begins. -/
def ownVariables (given : Entries Variable) : Entries Variable :=
  let own := [("OPTIND", "1"), ("PPID", "999"), ("PS1", "# "), ("PS2", "> "), ("PS4", "+ ")]
  let all := own.foldl (fun (vs : Entries Variable) (name, value) =>
    if vs.has name then vs else vs.put name { value := some value }) given
  all.put "IFS" { value := some " \t\n" }

/-- Make texts the arguments. -/
def setArguments (arguments : List String) : Script Unit :=
  modify fun m => { m with arguments, optionNumber := 1, optionOffset := none }

/-- Change what is known of a variable. -/
def mark (name : String) (f : Variable → Variable) : Script Unit :=
  modify fun m =>
    { m with «variables» := m.variables.put name (f ((m.variables.get? name).getD {})) }

/-- The name in front of an equals sign, and what follows that. -/
def splitAssignment (s : String) : String × Option String :=
  match splitFirst? '=' s.toList with
  | some (name, value) => (String.ofList name, some (String.ofList value))
  | none => (s, none)

/-- A name of a variable; another text is an error. -/
def checkName (name : String) : Script Unit := do
  unless isName name do die (name ++ ": bad variable name")

/-- List variables as the commands that would make them. -/
def listVariables (command : String) (wanted : Variable → Bool) : Script Unit := do
  let m ← get
  let found := (m.variables.filter fun (_, v) => wanted v).mergeSort fun a b => !decide (b.1 < a.1)
  for (name, v) in found do
    printLine (command ++ name ++ (v.value.elim "" fun s => "=" ++ quoteText s))

/-- Give variables a property, and maybe values. -/
def declare (name : String) (args : List String) (wanted : Variable → Bool)
    (f : Variable → Variable) : Script Unit := do
  let a ← readOptions "" "p" args
  if a.operands.isEmpty || a.has 'p' then listVariables (name ++ " ") wanted
  else
    for arg in a.operands do
      let (name, value) := splitAssignment arg
      checkName name
      match value with
      | some value => assign name value
      | none => pure ()
      mark name f
  finish 0

/-- Make variables a function's own. -/
def declareLocal (args : List String) : Script Unit := do
  if (← get).frames.isEmpty then die "not in a function"
  for arg in args do
    let m ← get
    let (name, value) := splitAssignment arg
    checkName name
    match m.frames with
    | [] => return
    | frame :: outer =>
      let frame := if frame.has name then frame else frame.put name (m.variables.get? name)
      set { m with frames := frame :: outer }
      match value with
      | some value => assign name value
      | none => pure ()
  finish 0

/-- Remove a variable. -/
def unsetVariable (name : String) : Script Unit := do
  checkName name
  let m ← get
  if (m.variables.get? name).any (·.readOnly) then die (name ++ ": is read only")
  else set { m with «variables» := m.variables.remove name }

/-- Remove variables or functions. -/
def unset (args : List String) : Script Unit := do
  let a ← readOptions "" "vf" args
  for name in a.operands do
    if a.isLast 'f' then
      modify fun m => { m with functions := m.functions.remove name }
    else unsetVariable name
  finish 0

/-! ## Options and arguments -/

/-- The options by their letters and names. -/
def optionNames : List (Char × String) :=
  [('e', "errexit"), ('f', "noglob"), ('I', "ignoreeof"), ('i', "interactive"), ('m', "monitor"),
    ('n', "noexec"), ('s', "stdin"), ('x', "xtrace"), ('v', "verbose"), ('V', "vi"),
    ('E', "emacs"), ('C', "noclobber"), ('a', "allexport"), ('b', "notify"), ('u', "nounset"),
    ('p', "privileged"), ('L', "nolog"), ('D', "debug")]

/-- Turn an option on or off. -/
def setOption (on : Bool) (letter : Char) : Script Unit :=
  modify fun m =>
    let isOn (c : Char) : Bool := if c == letter then on else m.has c
    { m with options := ((optionNames.map (·.1)).filter isOn).reverse }

/-- Read options of `set`, then arguments. -/
def setOptions : List String → Script Unit
  | [] => return
  | ["-o"] => do
    printLine "Current option settings"
    let m ← get
    for (c, name) in optionNames do
      let filled := name.toList ++ List.replicate (16 - name.length) ' '
      print (filled ++ (if m.has c then "on\n" else "off\n").toList)
  | ["+o"] => do
    let m ← get
    for (c, name) in optionNames do
      printLine ("set " ++ (if m.has c then "-" else "+") ++ "o " ++ name)
  | "-o" :: name :: rest => do
    named true name
    setOptions rest
  | "+o" :: name :: rest => do
    named false name
    setOptions rest
  | "--" :: args => setArguments args
  | "-" :: args => do
    setOption false 'x'
    unless args.isEmpty do setArguments args
  | arg :: rest =>
    match arg.toList with
    | '-' :: letters => do
      letters.forM (lettered true)
      setOptions rest
    | '+' :: letters => do
      letters.forM (lettered false)
      setOptions rest
    | _ => setArguments (arg :: rest)
where
  /-- Set an option by its name. -/
  named (on : Bool) (name : String) : Script Unit :=
    match optionNames.find? (·.2 == name) with
    | some (c, _) => setOption on c
    | none => die ("Illegal option " ++ (if on then "-" else "+") ++ "o " ++ name)
  /-- Set an option by its letter. -/
  lettered (on : Bool) (c : Char) : Script Unit :=
    if optionNames.any fun o => o.1 == c && c != 'L' && c != 'D' then setOption on c
    else die ("Illegal option " ++ (if on then "-" else "+") ++ String.singleton c)

/-- Drop arguments. -/
def shift (args : List String) : Script Unit := do
  let n ← match args with
    | [] => pure 1
    | s :: _ => numberOf s
  let m ← get
  if n ≤ m.arguments.length then setArguments (m.arguments.drop n)
  else die "can't shift that many"
  finish 0

/-- What `getopts` finds: the option, its value, the number of the next argument, and how much of
the last one was read. -/
structure OptionFound where
  letter : Char
  value : Option String
  next : Nat
  offset : Option Nat
  complaint : Option String := none

/-- Find the next option in arguments, from a number and an offset on. -/
def findOption (letters : List Char) (args : List String) (number : Nat) (offset : Option Nat) :
    Option OptionFound × Nat :=
  let silent := letters.head? == some ':'
  let inWord := offset.bind fun o =>
    if number ≤ 1 then none
    else ((args[number - 2]?).map fun a => (a.toList.drop o, o)).filter fun p => !p.1.isEmpty
  let start : Option (List Char × Nat × Nat) × Nat := match inWord with
    | some (cs, o) => (some (cs, o, number), number)
    | none =>
      match (args[number - 1]?).map String.toList with
      | some ['-', '-'] => (none, number + 1)
      | some ('-' :: c :: cs) => (some (c :: cs, 1, number + 1), number + 1)
      | _ => (none, number)
  match start with
  | (some (c :: rest, o, next), _) =>
    let after := if rest.isEmpty then none else some (o + 1)
    let takes := letters.dropWhile (· != c)
    if c == ':' || takes.isEmpty then
      let complaint := if silent then none else some ("Illegal option -" ++ String.singleton c)
      let value := if silent then some (String.singleton c) else none
      (some ⟨'?', value, next, after, complaint⟩, next)
    else if takes[1]? == some ':' then
      if !rest.isEmpty then (some ⟨c, some (String.ofList rest), next, none, none⟩, next)
      else
        match args[next - 1]? with
        | some value => (some ⟨c, some value, next + 1, none, none⟩, next + 1)
        | none =>
          if silent then (some ⟨':', some (String.singleton c), next, after, none⟩, next)
          else
            let complaint := "No arg for -" ++ String.singleton c ++ " option"
            (some ⟨'?', none, next, after, some complaint⟩, next)
    else (some ⟨c, some "", next, after, none⟩, next)
  | (_, next) => (none, next)

/-- Read the next option of the arguments. -/
def getOption (args : List String) : Script Unit := do
  match args with
  | letters :: name :: given =>
    checkName name
    let m ← get
    let all := if given.isEmpty then m.arguments else given
    let (found, next) := findOption letters.toList all m.optionNumber m.optionOffset
    match found with
    | some o =>
      match o.value with
      | some value => assign "OPTARG" value
      | none => unsetVariable "OPTARG"
      match o.complaint with
      | some message => warn (message ++ "\n")
      | none => pure ()
    | none => pure ()
    assign "OPTIND" (Json.intText next)
    modify fun m => { m with optionOffset := found.bind (·.offset) }
    assign name (String.singleton ((found.map (·.letter)).getD '?'))
    finish (if found.isSome then 0 else 1)
  | _ => die "Usage: getopts optstring var [arg...]"

/-! ## Directories -/

/-- The names of a path, the innermost first, where two dots leave the name before them. -/
def logicalNames (reached : List String) : List String → List String
  | [] => reached
  | part :: rest =>
    if part == "" || part == "." then logicalNames reached rest
    else if part == ".." then logicalNames reached.tail rest
    else logicalNames (part :: reached) rest

/-- The path that a path stands for in a directory. Two slashes in front stay two. -/
def logicalPath (directory path : String) : String :=
  let isFull := path.toList.head? == some '/'
  let full := if isFull then path else directory ++ "/" ++ path
  let isDouble := match (if isFull then path else directory).toList with
    | '/' :: '/' :: rest => rest.head? != some '/'
    | _ => false
  (if isDouble then "/" else "") ++ Files.pathOf (logicalNames [] (full.splitOn "/"))

/-- The directories that a list of them names: each with what stands before a file in it. -/
def searchPath (list : String) : List String :=
  (splitEach ':' list.toList).map fun cs => if cs.isEmpty then "" else String.ofList cs ++ "/"

/-- Go to another directory. -/
def changeDirectory (args : List String) : Script Unit := do
  let m ← get
  let a ← readOptions "" "LP" args
  let rest := a.operands
  let returns := rest.head? == some "-"
  let target := match rest with
    | "-" :: _ => (m.value? "OLDPWD").getD ""
    | path :: _ => path
    | [] => (m.value? "HOME").getD ""
  let first := (target.splitOn "/").headD ""
  let isFixed := target.toList.head? == some '/' || first == "." || first == ".."
  let target := if target == "" then "." else target
  let places := if isFixed then [] else searchPath ((m.value? "CDPATH").getD "")
  let place := places.find? fun p => m.system.files.isDirectory m.directory (p ++ target)
  let path := logicalPath m.directory (place.getD "" ++ target)
  match m.system.files.find true "/" path with
  | .ok (names, { node := .directory, .. }) =>
    let path := if a.isLast 'P' then Files.pathOf names else path
    assign "OLDPWD" m.directory
    assign "PWD" path
    mark "OLDPWD" fun v => { v with exported := true }
    mark "PWD" fun v => { v with exported := true }
    modify fun m => { m with directory := path }
    if returns || place.any (· != "") then printLine path
    finish 0
  | _ => die ("can't cd to " ++ target)

/-- Tell the directory. -/
def printDirectory (args : List String) : Script Unit := do
  let a ← readOptions "" "LP" args
  let m ← get
  let path := if a.isLast 'P' then
      ((m.system.files.locate true "/" m.directory).toOption.map Files.pathOf).getD m.directory
    else m.directory
  printLine path
  finish 0

/-- The number of a mode, of four digits in base 8. -/
def modeText (mode : Nat) : String :=
  let digits := Nat.toDigits 8 mode
  String.ofList (List.replicate (4 - digits.length) '0' ++ digits)

/-- Tell or change which permissions new files do not get. -/
def maskFiles (args : List String) : Script Unit := do
  let a ← readOptions "" "S" args
  let m ← get
  let letters (shift : Nat) : String :=
    let bits := (0o777 ^^^ m.mask) >>> shift
    (if bits &&& 4 != 0 then "r" else "") ++ (if bits &&& 2 != 0 then "w" else "") ++
      (if bits &&& 1 != 0 then "x" else "")
  match a.operands with
  | [] =>
    if a.has 'S' then printLine ("u=" ++ letters 6 ++ ",g=" ++ letters 3 ++ ",o=" ++ letters 0)
    else printLine (modeText m.mask)
  | s :: _ =>
    if s.toList.head?.any Char.isDigit then
      if s.toList.all fun c => '0' ≤ c && c ≤ '7' then
        set { m with mask := valueIn 8 s.toList &&& 0o777 }
      else die ("Illegal number: " ++ s)
    else
      match Utility.changeMode 0 s (0o777 ^^^ m.mask) with
      | some mode => set { m with mask := 0o777 ^^^ (mode &&& 0o777) }
      | none => die ("Illegal mode: " ++ s)
  finish 0

/-! ## Input and output -/

/-- Read a line in which, unless `raw`, a backslash protects the character behind it and joins
lines: its characters, and whether it was ended. -/
def readLine (raw : Bool) : Nat → Script (List Mark × Bool)
  | 0 => return ([], false)
  | fuel + 1 => do
    let (line, ended) ← readFrom true 0
    let line := line.filter (· != '\x00')
    if raw then return (line.map (·, false), ended)
    let (marks, joins) := protect line
    if joins && ended then
      let (more, ended) ← readLine raw fuel
      return (marks ++ more, ended)
    else return (marks, ended)
where
  /-- The characters of a line with those behind a backslash marked, and whether it ends in a
  backslash. -/
  protect : List Char → List Mark × Bool
    | [] => ([], false)
    | ['\\'] => ([], true)
    | '\\' :: c :: rest =>
      let (marks, joins) := protect rest
      ((c, true) :: marks, joins)
    | c :: rest =>
      let (marks, joins) := protect rest
      ((c, false) :: marks, joins)

/-- Read a line into variables. -/
def readVariables (args : List String) : Script Unit := do
  let a ← readOptions "p" "r" args
  match a.operands with
  | [] => die "arg count"
  | names =>
    names.forM checkName
    let (line, ended) ← readLine (a.has 'r') 10000
    let found := lineFields (← get).separators names.length line
    for (name, i) in names.zipIdx do
      assign name (String.ofList (found.getD i []))
    finish (if ended then 0 else 1)

/-- Write by a format. -/
def printFormatted (args : List String) : Script Unit := do
  match (← readOptions "" "" args).operands with
  | [] => die "usage: printf format [arg ...]"
  | format :: args =>
    let p := printf format args
    print p.text
    for message in p.complaints do complain message 1
    finish p.status

/-- Run a test. -/
def runTest (words : List String) : Script Unit := do
  match Test.holds (← get) (words.length + 2) words with
  | .ok answer => finish (if answer then 0 else 1)
  | .error message => die message

/-! ## Aliases -/

/-- Define or list aliases. -/
def defineAliases (args : List String) : Script Unit := do
  let m ← get
  let shown (a : String × String) : String := a.1 ++ "=" ++ quoteText a.2
  finish 0
  if args.isEmpty then for a in m.aliases do printLine (shown a)
  for arg in args do
    match splitAssignment arg with
    | (name, some value) =>
      modify fun m => { m with aliases := (name, value) :: m.aliases.remove name }
    | (name, none) =>
      match (← get).aliases.get? name with
      | some value => printLine (shown (name, value))
      | none =>
        warn ("alias: " ++ name ++ " not found\n")
        finish 1

/-- Remove aliases. -/
def removeAliases (args : List String) : Script Unit := do
  let a ← readOptions "" "a" args
  finish 0
  if a.has 'a' then modify fun m => { m with aliases := [] }
  else
    for name in a.operands do
      let m ← get
      if m.aliases.has name then set { m with aliases := m.aliases.remove name }
      else
        warn ("unalias: " ++ name ++ " not found\n")
        finish 1

/-! ## Programs -/

/-- What may stand before the name of a program: nothing before a path, else the directories where
programs are looked for. -/
def Machine.programPlaces (m : Machine) (name : String) : List String :=
  if name.toList.contains '/' then [""] else searchPath ((m.value? "PATH").getD "")

/-- The file of a program, and its content if it is a script. -/
def Machine.findProgram? (m : Machine) (name : String) : Option (String × Nat) :=
  (m.programPlaces name).findSome? fun place =>
    match m.system.files.find true m.directory (place ++ name) with
    | .ok (_, { node := .file n, mode }) =>
      if mode &&& 0o111 != 0 && name != "" then some (place ++ name, n) else none
    | _ => none

/-- What a name calls where a command stands. -/
inductive Called where
  | keyword
  | alias (text : String)
  | special
  | function
  | builtin
  | program (path : String)

/-- What a name calls; none if there is no such command. -/
def Machine.called? (m : Machine) (name : String) : Option Called :=
  if reservedWords.contains name then some .keyword
  else if let some text := m.aliases.get? name then some (.alias text)
  else if specialCommands.contains name then some .special
  else if m.functions.has name then some .function
  else if plainCommands.contains name then some .builtin
  else (m.findProgram? name).map fun found => .program found.1

/-- Remember that the place of a program is known. -/
def track (name : String) : Script Unit :=
  modify fun m =>
    if name.toList.contains '/' || m.tracked.contains name then m
    else
      match m.called? name with
      | some (.program _) => { m with tracked := name :: m.tracked }
      | _ => m

/-- Tell what names call. -/
def describeAll (names : List String) : Script Unit := do
  finish 0
  for name in names do
    let m ← get
    match m.called? name with
    | none =>
      printLine (name ++ ": not found")
      finish 127
    | some called =>
      printLine (name ++ " is " ++ match called with
        | .keyword => "a shell keyword"
        | .alias text => "an alias for " ++ text
        | .special => "a special shell builtin"
        | .function => "a shell function"
        | .builtin => "a shell builtin"
        | .program path =>
          if m.tracked.contains name then "a tracked alias for " ++ path else path)
    track name

/-- Forget, list or find the places of programs. -/
def hash (args : List String) : Script Unit := do
  let a ← readOptions "" "r" args
  finish 0
  if a.has 'r' then modify fun m => { m with tracked := [] }
  else if a.operands.isEmpty then
    let m ← get
    for name in m.tracked.reverse do
      printLine (((m.findProgram? name).map (·.1)).getD name)
  else
    for name in a.operands do
      if ((← get).called? name).isNone then complain (name ++ ": not found") 1 else track name

/-- Tell how a command would be called. -/
def locateCommand (name : String) : Script Unit := do
  finish 0
  match (← get).called? name with
  | none => finish 127
  | some (.alias text) => printLine ("alias " ++ name ++ "=" ++ quoteText text)
  | some (.program path) => printLine path
  | some _ => printLine name
  track name

/-! ## Ends -/

/-- End the process. -/
def exitWith (args : List String) : Script Unit := do
  match args with
  | s :: _ => finish (← numberOf s)
  | [] =>
    match (← get).endStatus with
    | some status => finish status
    | none => pure ()
  throw .exit

/-- Come back from a function or a file. -/
def comeBack (args : List String) : Script Unit := do
  match args with
  | s :: _ => finish (← numberOf s)
  | [] => pure ()
  throw .comeBack

/-- Leave loops, or go on with the next round of one. -/
def leaveLoops (args : List String) (signal : Nat → Signal) : Script Unit := do
  let n ← match args with
    | [] => pure 1
    | s :: _ =>
      let n ← numberOf s
      if n = 0 then die ("Illegal number: " ++ s) else pure n
  finish 0
  let loops := (← get).loops
  if loops != 0 then throw (signal (min n loops - 1))

/-- The commands of the shell, unless they run other commands. -/
def builtin? (name : String) (args : List String) : Option (Script Unit) :=
  match name with
  | ":" | "true" => some (finish 0)
  | "false" => some (finish 1)
  | "echo" => some do
    finish 0
    print (echo args)
  | "printf" => some (printFormatted args)
  | "test" => some (runTest args)
  | "[" => some do
    if args.getLast? == some "]" then runTest args.dropLast else die "missing ]"
  | "cd" | "chdir" => some (changeDirectory args)
  | "pwd" => some (printDirectory args)
  | "umask" => some (maskFiles args)
  | "read" => some (readVariables args)
  | "export" =>
    some (declare name args (fun v => v.exported) fun v => { v with exported := true })
  | "readonly" =>
    some (declare name args (fun v => v.readOnly) fun v => { v with readOnly := true })
  | "local" => some (declareLocal args)
  | "unset" => some (unset args)
  | "set" => some do
    if args.isEmpty then listVariables "" fun v => v.value.isSome else setOptions args
    finish 0
  | "shift" => some (shift args)
  | "getopts" => some (getOption args)
  | "alias" => some (defineAliases args)
  | "unalias" => some (removeAliases args)
  | "type" => some (describeAll args)
  | "hash" => some (hash args)
  | "trap" => some (setTraps args)
  | "kill" => some (kill args)
  | "wait" => some (waitJobs args)
  | "jobs" => some (listJobs args)
  | "fg" | "bg" => some (moveJob args)
  | "ulimit" => some do
    let a ← readOptions "" "HSatfdscmlpnvwr" args
    if a.operands.isEmpty then printLine "unlimited"
    finish 0
  | "times" => some do
    printLine "0m0.000000s 0m0.000000s"
    printLine "0m0.000000s 0m0.000000s"
    finish 0
  | "exit" => some (exitWith args)
  | "return" => some (comeBack args)
  | "break" => some (leaveLoops args .leave)
  | "continue" => some (leaveLoops args .next)
  | _ => none

end Flowline.Shell
