import Flowline.Shell.LineEditor
import Flowline.Shell.Machine
import Flowline.Shell.WordExpression

/-!
# Utilities

The programs that commands can call. Each runs in a process of its own, and what it does depends
only on its arguments, its streams, the files and the exported variables.
-/

namespace Flowline.Shell

open Script

/-- The milliseconds that an argument of `sleep` denotes. -/
def sleepMs? (s : String) : Option Nat :=
  let (whole, rest) := spanDigits s.toList
  let (fraction, rest) := match rest with
    | '.' :: rest => spanDigits rest
    | rest => ([], rest)
  let unit := match rest with
    | [] | ['s'] => some 1
    | ['m'] => some 60
    | ['h'] => some 3600
    | ['d'] => some 86400
    | _ => none
  if whole.isEmpty && fraction.isEmpty then none
  else
    let thousandths := digitsValue 0 ((fraction ++ ['0', '0', '0']).take 3)
    unit.map (· * (digitsValue 0 whole * 1000 + thousandths))

/-- The last part of a path. -/
def baseName (path : String) : String :=
  let parts := (path.splitOn "/").filter (· != "")
  if path == "" then "" else parts.getLastD "/"

/-- The path of the directory that holds a path. -/
def directoryName (path : String) : String :=
  let cs := path.toList.reverse.dropWhile (· == '/')
  let cs := (cs.dropWhile (· != '/')).dropWhile (· == '/')
  if cs.isEmpty then if path.toList.head? == some '/' then "/" else "."
  else String.ofList cs.reverse

/-- The numbers of a sequence, up to a count. -/
def sequence (first step last : Int) : Nat → List Int
  | 0 => []
  | fuel + 1 =>
    if (0 < step && first ≤ last) || (step < 0 && last ≤ first) then
      first :: sequence (first + step) step last fuel
    else []

namespace Utility

/-- Complain under the name of a program. -/
def report (name message : String) : Script Unit := warn (name ++ ": " ++ message ++ "\n")

/-- Complain, and end with a status. -/
def fails (name message : String) (status : Nat) : Script Unit := do
  report name message
  finish status

/-- Complain about the arguments of a program, and end with a status. -/
def misused (name message : String) (status : Nat) : Script Unit := do
  report name message
  warn ("Try '" ++ name ++ " --help' for more information.\n")
  finish status

/-- Complain if a program could not write all of its output. -/
def checkOutput (name : String) : Script Unit := do
  let m ← get
  if m.refused then
    let isFull := m.streams.lookup 1 = some (.device .full)
    let action := if name == "cat" && !isFull then "standard output" else "write error"
    set { m with refused := false }
    fails name (action ++ ": " ++
      if isFull then "No space left on device" else "Bad file descriptor") 1

/-- The content of a file that is not a directory. -/
def contentOf (path : String) : Script (Except FileFault (List Char)) := do
  let m ← get
  match m.system.files.find true m.directory path with
  | .error fault => return .error fault
  | .ok (_, entry) =>
    match entry.node with
    | .directory => return .error .isDirectory
    | .file n => return .ok (m.system.files.content n).toList
    | .device (.stream n) => return .ok (← readFrom false n).1
    | _ => return .ok []

/-- What a program reads: the files that it is given or, without any, its input. -/
def contents (name : String) (files : List String) : Script (List Filter.Content × Bool) := do
  if files.isEmpty then return ([⟨none, ← readAll⟩], true)
  let mut found := []
  let mut complete := true
  for file in files do
    if file == "-" then found := found ++ [⟨some "-", ← readAll⟩]
    else
      match ← contentOf file with
      | .ok text => found := found ++ [⟨some file, text⟩]
      | .error fault =>
        report name (file ++ ": " ++ fault.message)
        complete := false
  return (found, complete)

/-- Read lines of the input, up to a count. -/
def readLines : Nat → Script (List Char)
  | 0 => return []
  | n + 1 => do
    let (line, ended) ← readFrom true 0
    if ended then return line ++ '\n' :: (← readLines n) else return line

/-- The number of lines that `head` writes of its input, if it reads no more than that. -/
def firstLines? (args : List String) : Option Nat :=
  let a := Filter.argumentsOf "head" args
  if a.operands.isEmpty && !a.has 'c' && a.unknown.isNone then
    (Filter.amount? ((a.value? 'n').getD "10")).bind fun
      | .first n => some n
      | _ => none
  else none

/-- Run a filter. -/
def runFilter (name : String) (args : List String) : Script Unit := do
  let isPipe := match (← get).streams.lookup 0 with
    | some (.opened _) => false
    | _ => true
  let (found, complete) ← contents name (Filter.filesOf name args)
  let isSearch := name == "grep" || name == "egrep" || name == "fgrep"
  match (Filter.argumentsOf name args).unknown, Filter.run? name args isPipe found with
  | none, some r =>
    print r.text
    match r.complaint with
    | some message => fails name message r.status
    | none =>
      finish (if complete then r.status else if isSearch then 2 else 1)
  | some c, _ =>
    misused name ("invalid option -- '" ++ String.singleton c ++ "'") (if isSearch then 2 else 1)
  | none, none => finish 127

/-- Edit lines. -/
def runEditor (args : List String) : Script Unit := do
  match LineEditor.ofArguments args with
  | (none, _, _) => fails "sed" "-e expression #1, char 1: unknown command" 1
  | (some script, silent, files) =>
    let (found, complete) ← contents "sed" files
    let lines := found.flatMap fun c => Filter.endedLines c.text
    let lines := if found.all fun c => c.text.isEmpty then [] else lines
    print (LineEditor.edit silent script {} lines)
    finish (if complete then 0 else 2)

/-- Copy the input to the output and to files. -/
def tee (args : List String) : Script Unit := do
  let text ← readAll
  let adds := args.contains "-a"
  print text
  for file in args.filter (· != "-a") do
    let m ← get
    match m.system.files.locate true m.directory file with
    | .error fault => report "tee" (file ++ ": " ++ fault.message)
    | .ok names =>
      let (number, files) : Option Nat × Files := match m.system.files.at? names with
        | some { node := .file n, .. } => (some n, m.system.files)
        | some _ => (none, m.system.files)
        | none =>
          let (files, n) := m.system.files.create names (0o666 &&& (0o777 ^^^ m.mask))
          (some n, files)
      match number with
      | none => pure ()
      | some n =>
        let before := if adds then files.content n else #[]
        modify fun m => m.onFiles fun _ => files.setContent n (before ++ text.toArray)
  finish 0

/-- Do something with each operand, and complain about those with which it cannot be done. -/
def forFiles (name doing : String) (operands : List String)
    (act : Files → String → Except FileFault Files) : Script Unit := do
  if operands.isEmpty then misused name "missing operand" 1
  else
    finish 0
    for path in operands do
      let m ← get
      match act m.system.files path with
      | .ok files => set (m.onFiles fun _ => files)
      | .error fault =>
        fails name (doing ++ " '" ++ path ++ "': " ++ fault.message) 1

/-- Make directories; with `all`, also those that hold them. -/
def makeDirectory (directory : String) (mode : Nat) (all : Bool) (fs : Files) (path : String) :
    Except FileFault Files := do
  let make (fs : Files) (path : String) : Except FileFault Files := do
    let names ← fs.locate true directory path
    match fs.at? names with
    | none => return fs.put names ⟨.directory, mode⟩
    | some entry => if all && entry.node = .directory then return fs else throw .present
  if all then
    let parts := path.splitOn "/"
    let starts := ((List.range parts.length).map fun i => "/".intercalate (parts.take (i + 1)))
    (starts.filter (· != "")).foldlM make fs
  else make fs path

/-- Remove a directory that holds nothing. -/
def removeDirectory (directory : String) (fs : Files) (path : String) : Except FileFault Files := do
  let (names, entry) ← fs.find false directory path
  if entry.node ≠ .directory then throw .notDirectory
  if !(fs.children names).isEmpty then throw .notEmpty
  return fs.remove names

/-- Remove a file or, with `all`, a directory; with `force`, what is missing is no fault. -/
def removeFile (directory : String) (all force : Bool) (fs : Files) (path : String) :
    Except FileFault Files :=
  match fs.find false directory path with
  | .error fault => if force then return fs else throw fault
  | .ok (names, entry) =>
    if entry.node = .directory then
      if all then return fs.removeTree names else throw .isDirectory
    else return fs.remove names

/-- Make a file that is missing. -/
def touch (directory : String) (mode : Nat) (fs : Files) (path : String) :
    Except FileFault Files := do
  let names ← fs.locate true directory path
  return if (fs.at? names).isSome then fs else (fs.create names mode).1

/-- The names of the target of a file that is copied or moved: in a directory, under its own
name. -/
def targetOf (fs : Files) (directory source target : String) : Except FileFault (List String) := do
  let names ← fs.locate true directory target
  match fs.at? names with
  | some { node := .directory, .. } => return baseName source :: names
  | _ => return names

/-- Copy a file or, with `all`, a directory. -/
def copyFile (directory : String) (all : Bool) (target : String) (fs : Files) (source : String) :
    Except FileFault Files := do
  let (names, entry) ← fs.find true directory source
  let target ← targetOf fs directory source target
  let copyOne (fs : Files) (entry : FileEntry) (target : List String) : Files :=
    match entry.node with
    | .file n =>
      match fs.at? target with
      | some { node := .file t, .. } => fs.setContent t (fs.content n)
      | _ =>
        let (fs, t) := fs.create target entry.mode
        fs.setContent t (fs.content n)
    | _ => fs.put target entry
  if entry.node = .directory && !all then throw .isDirectory
  let start := Files.inside names
  let held := fs.entries.filter fun e => start.toList.isPrefixOf e.1.toList
  let copied := copyOne fs entry target
  return if entry.node ≠ .directory then copied
    else held.foldl (fun fs (path, e) =>
      let rest := (path.toList.drop start.length)
      copyOne fs e (((String.ofList rest).splitOn "/").reverse ++ target)) copied

/-- Move a file or a directory. -/
def moveFile (directory target : String) (fs : Files) (source : String) :
    Except FileFault Files := do
  let (names, _) ← fs.find false directory source
  return fs.move names (← targetOf fs directory source target)

/-- Give a file another name, or link to a path. -/
def link (directory target : String) (soft force : Bool) (fs : Files) (source : String) :
    Except FileFault Files := do
  let names ← targetOf fs directory source target
  if (fs.at? names).isSome && !force then throw .present
  if soft then return fs.put names ⟨.link source, 0o777⟩
  else
    let (_, entry) ← fs.find true directory source
    if entry.node = .directory then throw .isDirectory
    return fs.put names entry

/-- The permissions that a change makes of others. -/
def changeMode (mask : Nat) (change : String) (mode : Nat) : Option Nat :=
  let cs := change.toList
  if !cs.isEmpty && cs.all fun c => '0' ≤ c && c ≤ '7' then some (valueIn 8 cs)
  else
    (splitEach ',' cs).foldlM (fun mode clause => do
      let who := clause.takeWhile fun c => "ugoa".toList.contains c
      let rest := clause.drop who.length
      let op ← rest.head?
      let bits := (rest.drop 1).foldl (fun b c =>
        b ||| match c with
          | 'r' => 0o444
          | 'w' => 0o222
          | 'x' => 0o111
          | 'X' => if mode &&& 0o111 != 0 then 0o111 else 0
          | _ => 0) 0
      let reach := if who.isEmpty then 0o777 &&& (0o777 ^^^ mask) else
        who.foldl (fun b c =>
          b ||| match c with
            | 'u' => 0o700
            | 'g' => 0o070
            | 'o' => 0o007
            | _ => 0o777) 0
      let own := bits &&& reach
      match op with
      | '+' => some (mode ||| own)
      | '-' => some (mode &&& (0o7777 ^^^ own))
      | '=' =>
        let all := if who.isEmpty then 0o777 else reach
        some ((mode &&& (0o7777 ^^^ all)) ||| own)
      | _ => none) mode

/-- Change the permissions of a file. -/
def changeFileMode (directory change : String) (mask : Nat) (fs : Files) (path : String) :
    Except FileFault Files := do
  let (names, entry) ← fs.find true directory path
  match changeMode mask change entry.mode with
  | some mode => return fs.put names { entry with mode }
  | none => return fs

/-- List files. -/
def list (a : Filter.Arguments) : Script Unit := do
  let m ← get
  let paths := if a.operands.isEmpty then ["."] else a.operands
  let found := paths.map fun p => (p, m.system.files.find true m.directory p)
  let isDirectory (e : FileEntry) : Bool := e.node = .directory && !a.has 'd'
  finish 0
  for (path, result) in found do
    match result with
    | .error fault => fails "ls" ("cannot access '" ++ path ++ "': " ++ fault.message) 2
    | .ok _ => pure ()
  let plain := found.filterMap fun (path, result) =>
    match result with
    | .ok (_, e) => if isDirectory e then none else some path
    | .error _ => none
  for path in plain do printLine path
  let mut first := plain.isEmpty
  for (path, result) in found do
    match result with
    | .ok (names, e) =>
      if isDirectory e then
        unless first do printLine ""
        first := false
        if 1 < paths.length then printLine (path ++ ":")
        let held := (m.system.files.children names).filter fun name =>
          a.has 'a' || a.has 'A' || name.toList.head? != some '.'
        let held := if a.has 'a' then "." :: ".." :: held else held
        for name in (if a.has 'r' then held.reverse else held) do printLine name
    | .error _ => pure ()

/-- The exported variables, each with its value. -/
def environment (m : Machine) : List (String × String) :=
  m.variables.filterMap fun (name, v) => if v.exported then v.value.map (name, ·) else none

/-- The arguments of `seq` as numbers. -/
def sequenceOf (numbers : List Int) : Option (List Int) :=
  match numbers with
  | [last] => some (sequence 1 1 last 100000)
  | [first, last] => some (sequence first 1 last 100000)
  | [first, step, last] => some (sequence first step last 100000)
  | _ => none

/-- Write a sequence of numbers. -/
def writeSequence (args : List String) : Script Unit := do
  let isOption (s : String) : Bool :=
    match s.toList with
    | '-' :: c :: _ => !c.isDigit
    | _ => false
  let options := args.takeWhile isOption
  let rest := args.drop options.length
  let (between, rest) := match options, rest with
    | ["-s"], s :: rest => (s, rest)
    | [o], rest =>
      match o.toList with
      | '-' :: 's' :: cs => (String.ofList cs, rest)
      | _ => ("\n", rest)
    | _, rest => ("\n", rest)
  match (rest.mapM decimal?).bind sequenceOf with
  | none => misused "seq" "missing operand" 1
  | some numbers =>
    let texts := numbers.map Json.intText
    let longest := (texts.map String.length).foldl max 0
    let texts := if options.contains "-w" then
        texts.map fun t => String.ofList (List.replicate (longest - t.length) '0') ++ t
      else texts
    unless texts.isEmpty do print (between.intercalate texts ++ "\n").toList
    finish 0

/-- The programs that need nothing but their streams and files. -/
def program? (name : String) (args : List String) : Option (Script Unit) :=
  let options (letters : String) : Filter.Arguments :=
    Filter.Arguments.read "m" letters true (args.length + 1) {} args
  match name, if name == "head" then firstLines? args else none with
  | "head", some n => some do
    print (← readLines n)
    finish 0
  | _, _ =>
  match name with
  | "cat" | "tac" | "rev" | "nl" | "head" | "tail" | "wc" | "sort" | "uniq" | "tr" | "cut"
  | "paste" | "grep" | "egrep" | "fgrep" => some (runFilter name args)
  | "sed" => some (runEditor args)
  | "tee" => some (tee args)
  | "sleep" => some do
    match args.mapM sleepMs? with
    | some (ms :: more) =>
      modify fun m => { m with now := m.now + more.foldl (· + ·) ms }
      finish 0
    | some [] => misused "sleep" "missing operand" 1
    | none =>
      let wrong := (args.find? fun s => (sleepMs? s).isNone).getD ""
      misused "sleep" ("invalid time interval '" ++ wrong ++ "'") 1
  | "expr" => some do
    match WordExpression.value args with
    | .ok value =>
      printLine value
      finish (if WordExpression.isTrue value then 0 else 1)
    | .error .missing => misused "expr" WordExpression.Fault.missing.message 2
    | .error fault => fails "expr" fault.message 2
  | "seq" => some (writeSequence args)
  | "basename" => some do
    match args with
    | [] => misused "basename" "missing operand" 1
    | path :: rest =>
      printLine (String.ofList (withoutEnd (rest.headD "").toList (baseName path).toList))
      finish 0
  | "dirname" => some do
    for path in args do printLine (directoryName path)
    finish 0
  | "printenv" => some do
    let all := environment (← get)
    if args.isEmpty then for (name, value) in all do printLine (name ++ "=" ++ value)
    let missing := args.filter fun name => (all.lookup name).isNone
    for name in args do
      match all.lookup name with
      | some value => printLine value
      | none => pure ()
    finish (if missing.isEmpty then 0 else 1)
  | "mkdir" => some do
    let m ← get
    let a := options "p"
    forFiles name "cannot create directory" a.operands
      (makeDirectory m.directory (0o777 &&& (0o777 ^^^ m.mask)) (a.has 'p'))
  | "rmdir" => some do
    forFiles name "failed to remove" (options "p").operands (removeDirectory (← get).directory)
  | "rm" => some do
    let a := options "rRfvi"
    if a.has 'f' && a.operands.isEmpty then finish 0
    else
      forFiles name "cannot remove" a.operands
        (removeFile (← get).directory (a.has 'r' || a.has 'R') (a.has 'f'))
  | "touch" => some do
    let m ← get
    forFiles name "cannot touch" (options "acm").operands
      (touch m.directory (0o666 &&& (0o777 ^^^ m.mask)))
  | "cp" | "mv" | "ln" => some do
    let a := options "rRfpasnvi"
    let m ← get
    let sources := a.operands.dropLast
    let target := a.operands.getLastD ""
    let isHere := m.system.files.isDirectory m.directory target
    if sources.isEmpty then misused name "missing file operand" 1
    else if 1 < sources.length && !isHere then
      fails name ("target '" ++ target ++ "': " ++ FileFault.message .notDirectory) 1
    else
      let act := match name with
        | "cp" => copyFile m.directory (a.has 'r' || a.has 'R' || a.has 'a') target
        | "mv" => moveFile m.directory target
        | _ => link m.directory target (a.has 's') (a.has 'f')
      forFiles name "cannot stat" sources act
  | "chmod" => some do
    let m ← get
    match args with
    | change :: paths =>
      forFiles name "cannot access" paths (changeFileMode m.directory change m.mask)
    | [] => misused name "missing operand" 1
  | "ls" => some (list (options "aAdr1CRFlt"))
  | "readlink" => some do
    let m ← get
    let a := options "fen"
    let path := a.operands.headD ""
    let files := m.system.files
    match files.find false m.directory path, files.locate true m.directory path with
    | .ok (_, { node := .link target, .. }), found =>
      printLine (if a.has 'f' then (found.toOption.map Files.pathOf).getD target else target)
      finish 0
    | _, .ok names =>
      if a.has 'f' then
        printLine (Files.pathOf names)
        finish 0
      else finish 1
    | _, .error _ => finish 1
  | "realpath" => some do
    let m ← get
    match m.system.files.locate true m.directory (args.headD "") with
    | .ok names =>
      printLine (Files.pathOf names)
      finish 0
    | .error fault => fails name (args.headD "" ++ ": " ++ fault.message) 1
  | "mktemp" => some do
    let m ← get
    let isDirectory := args.contains "-d"
    let names := ["tmp." ++ Json.intText m.system.files.entries.length, "tmp"]
    set (m.onFiles fun fs =>
      if isDirectory then fs.put names ⟨.directory, 0o700⟩ else (fs.create names 0o600).1)
    printLine (Files.pathOf names)
    finish 0
  | "whoami" => some do
    printLine "root"
    finish 0
  | "id" => some do
    printLine (if args.contains "-un" || args.contains "-gn" then "root" else
      if args.contains "-u" || args.contains "-g" then "0" else
        "uid=0(root) gid=0(root) groups=0(root)")
    finish 0
  | "uname" => some do
    printLine "Linux"
    finish 0
  | "yes" => some do
    let line := if args.isEmpty then "y" else " ".intercalate args
    for _ in List.range 20000 do printLine line
    throw .endless
  | "tty" => some do
    printLine "not a tty"
    finish 1
  | _ => none

end Utility

end Flowline.Shell
