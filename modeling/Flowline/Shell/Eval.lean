import Flowline.Shell.Builtin
import Flowline.Shell.Reader

/-!
# Running commands

`Shell.eval` runs a command on the machine. Its first argument bounds how deeply commands,
expansions and functions may be nested, and loops run for a bounded number of rounds; what exceeds
the bounds counts as going on for ever. Its second argument tells that the process ends with the
command, whose redirections then need not be taken back.
-/

namespace Flowline.Shell

open Script

/-- How many rounds loops may run in all. -/
def maxRounds : Nat := 100000

/-- Where a tilde in a word can stand for a directory. -/
inductive TildePlace where
  | nowhere
  | front
  /-- In front, and behind a colon. -/
  | assignment
deriving DecidableEq

/-- End the process if a command failed and that is asked for. -/
def checkFailure : Script Unit := do
  let m ← get
  if m.has 'e' && !m.tested && m.status != 0 then throw .exit

/-- Run something whose status is looked at. -/
def tested (s : Script Unit) : Script Unit := do
  let before := (← get).tested
  modify fun m => { m with tested := true }
  let result ← outcome s
  modify fun m => { m with tested := before }
  resumeWith result

/-- The last command ended well. -/
def succeeded : Script Bool := ask fun m => m.status == 0

/-- The text of an expanded word that is not split. -/
def joined (pieces : List Piece) : Script String := ask fun m => m.textOf pieces

/-- What a command wrote, as the text that it stands for: without ends of lines at its end. -/
def outputText (text : List Char) : List Char :=
  ((text.filter (· != '\x00')).reverse.dropWhile (· == '\n')).reverse

/-- Give variables back the values that they had. -/
def restoreVariables (saved : Entries (Option Variable)) : Script Unit :=
  modify fun m => { m with
    «variables» := saved.foldl (fun vs (name, v) =>
      match v with
      | some v => Entries.put vs name v
      | none => Entries.remove vs name) m.variables }

/-- Give the streams back what they were. -/
def restoreStreams (streams : List (Nat × Port)) : Script Unit :=
  modify fun m => { m.holdStreams with streams }

/-- Open a file for a stream, or tell why that cannot be done. -/
def openFile (mode : OpenMode) (path : String) : Script (Except String Port) := do
  let m ← get
  let files := m.system.files
  let opened (number : Nat) (files : Files) : Script (Except String Port) := do
    let m := m.onFiles fun _ => files
    let (n, m) := m.newOpened { number, append := mode = .append }
    set m
    return .ok (.opened n)
  let creates := mode ≠ .read
  let refusal := (if creates then "cannot create " else "cannot open ") ++ path ++ ": "
  match files.locate true m.directory path with
  | .error _ =>
    return .error (refusal ++ if creates then "Directory nonexistent" else "No such file")
  | .ok names =>
    match files.at? names with
    | none =>
      if creates then
        let (files, number) := files.create names (0o666 &&& (0o777 ^^^ m.mask))
        opened number files
      else return .error (refusal ++ "No such file")
    | some entry =>
      match entry.node with
      | .directory | .link _ =>
        if creates then return .error (refusal ++ FileFault.isDirectory.message)
        else return .ok (.device .null)
      | .device (.stream n) =>
        match m.streams.lookup n with
        | some port => return .ok port
        | none => return .error (refusal ++ "No such file")
      | .device d => return .ok (.device d)
      | .file number =>
        if mode = .write && m.has 'C' then
          return .error (refusal ++ FileFault.present.message)
        else
          let empties := mode = .write || mode = .overwrite
          opened number (if empties then files.setContent number #[] else files)

/-- A command of the shell itself. -/
def isBuiltin (name : String) : Bool :=
  specialCommands.contains name || plainCommands.contains name

/-- The words between blanks, where quotes and backslashes protect; a quote may be open, and a
word be begun. -/
def quotedWords : Option Char → Option (List Char) → List Char → List String
  | _, word, [] => (word.map String.ofList).toList
  | none, word, '\\' :: c :: rest => quotedWords none (some (word.getD [] ++ [c])) rest
  | some q, word, c :: rest =>
    if c == q then quotedWords none word rest
    else quotedWords (some q) (some (word.getD [] ++ [c])) rest
  | none, word, c :: rest =>
    if c == '\'' || c == '"' then quotedWords (some c) (some (word.getD [])) rest
    else if c.isWhitespace then (word.map String.ofList).toList ++ quotedWords none none rest
    else quotedWords none (some (word.getD [] ++ [c])) rest

/-- Lists of a length, of which the last one may be shorter. -/
def chunksOf {α : Type} (n : Nat) (items : List α) : List (List α) :=
  (List.range ((items.length + n - 1) / n)).map fun i => (items.drop (i * n)).take n

/-- The options with which a shell is called, and the other arguments. -/
def shellOptions : Nat → List Char → List String → List Char × List String
  | 0, letters, args => (letters, args)
  | _, letters, [] => (letters, [])
  | fuel + 1, letters, arg :: rest =>
    match arg.toList with
    | ['-', '-'] => (letters, rest)
    | ['-', 'o'] =>
      let letter := (optionNames.find? fun o => some o.2 == rest.head?).map (·.1)
      shellOptions fuel (letters ++ letter.toList) (rest.drop 1)
    | '-' :: c :: cs => shellOptions fuel (letters ++ c :: cs) rest
    | _ => (letters, arg :: rest)

mutual

/-- Expand the parts of a word. -/
def expand : Nat → TildePlace → Word → Script (List Piece)
  | 0, _, _ => throw .endless
  | fuel + 1, tildes, w => do
    let pieces ← w.zipIdx.mapM fun (part, i) => do
      match part with
      | .text cs false =>
        let m ← get
        let isLast := i + 1 = w.length
        return [.fixed (match tildes with
          | .front => if i = 0 then m.expandTilde false cs isLast else cs.map (·, false)
          | .assignment => m.expandTildes (i = 0) isLast (splitEach ':' cs)
          | .nowhere => cs.map (·, false))]
      | part => expandPart fuel part
    return pieces.flatten

/-- Expand a part of a word. -/
def expandPart : Nat → WordPart → Script (List Piece)
  | 0, _ => throw .endless
  | _, .text cs quoted => return [.fixed (cs.map (·, quoted))]
  | _, .badParameter => die "Bad substitution"
  | fuel + 1, .output body quoted => do
    let before := (← get).status
    let text ← capture (match body with
      | some c => endProcess fuel (eval fuel true c)
      | none => finish 0)
    modify fun m => { m with outputStatus := some m.status, status := before }
    return [Piece.ofText quoted (outputText text)]
  | fuel + 1, .arithmetic source quoted => do
    let text ← joined (← expand fuel .nowhere source)
    let m ← get
    match (do (← Expression.read text).eval { find := m.value? }) with
    | .error fault => die (fault.message text)
    | .ok (n, v) =>
      for (name, value) in v.assigned do assign name value
      return [Piece.ofText quoted (Json.intText n).toList]
  | fuel + 1, .parameter name use colon word quoted => do
    let m ← get
    let isList := name == "@" || name == "*"
    let value := if isList then some (m.textOf (m.argumentPieces "*" true))
      else m.parameter? name
    let pieces := if isList then m.argumentPieces name quoted
      else (value.map fun s => Piece.ofText quoted s.toList).toList
    let present := value.any fun s => !colon || s != ""
    let mustBeSet : Script Unit := do
      if m.has 'u' && value.isNone && !isList then die (name ++ ": parameter not set")
    let shown (cs : List Char) : List Piece := [Piece.ofText quoted cs]
    match use with
    | .value =>
      mustBeSet
      return pieces
    | .length =>
      mustBeSet
      return shown (Json.intText (value.getD "").length).toList
    | .orElse => if present then return pieces else inPlace fuel quoted word
    | .instead => if present then inPlace fuel quoted word else return []
    | .orAssign =>
      if present then return pieces
      else
        let s ← joined (← expand fuel .front word)
        if isName name then assign name s else die (name ++ ": bad variable name")
        return shown s.toList
    | .orFail =>
      if present then return pieces
      else
        let s ← joined (← expand fuel .front word)
        die (name ++ ": " ++
          if !word.isEmpty then s
          else if colon then "parameter not set or null" else "parameter not set")
    | .cutFront longest =>
      mustBeSet
      let pattern := patternOf (m.marksOf (← expand fuel .front word))
      return shown (dropFront longest pattern (value.getD "").toList)
    | .cutBack longest =>
      mustBeSet
      let pattern := patternOf (m.marksOf (← expand fuel .front word))
      return shown (dropBack longest pattern (value.getD "").toList)

/-- Expand the word that takes the place of a parameter. -/
def inPlace : Nat → Bool → Word → Script (List Piece)
  | 0, _, _ => throw .endless
  | fuel + 1, quoted, word => do
    let pieces ← expand fuel .front word
    return if quoted then pieces else loosen pieces

/-- The fields of a word. -/
def fields : Nat → Word → Script (List String)
  | 0, _ => throw .endless
  | fuel + 1, w => do
    let pieces ← expand fuel .front w
    ask fun m => (fieldsOf m.separators pieces).flatMap m.pathsOf

/-- The fields of the words of a command; behind a command that takes assignments, words of that
form are not split. -/
def commandFields : Nat → List Word → Script (List String)
  | 0, _ => throw .endless
  | fuel + 1, words =>
    words.foldlM (fun found w => do
      let command := (found.dropWhile (· == "command")).head?
      let takes := command.any assigningCommands.contains
      match w.assignment?.filter fun _ => takes with
      | some (name, value) =>
        let s ← joined (← expand fuel .assignment value)
        return found ++ [name ++ "=" ++ s]
      | none => return found ++ (← fields fuel w)) []

/-- Show a command before it runs, if that is asked for. -/
def trace : Nat → List (Nat × Port) → List String → List String → Script Unit
  | 0, _, _, _ => throw .endless
  | fuel + 1, streams, assigned, command => do
    let m ← get
    if m.has 'x' then
      let r : Reader := { rest := ((m.value? "PS4").getD "").toList, bodies := m.bodies }
      set { m with options := m.options.filter (· != 'x') }
      let start ← match ((Reading.parts r.depth .document).run r).1 with
        | .ok w => joined (← expand fuel .nowhere w)
        | .error _ => pure ""
      let text := start ++ " ".intercalate (assigned ++ command) ++ "\n"
      modify fun m' => { m' with options := m.options }
      match streams.lookup 2 with
      | some port => modify fun m => m.writeTo text.toList port
      | none => pure ()

/-- Make assignments; tells them as they were made. -/
def assignAll : Nat → Bool → List (String × Word) → Script (List String)
  | 0, _, _ => throw .endless
  | fuel + 1, exports, assignments =>
    assignments.mapM fun (name, w) => do
      let value ← joined (← expand fuel .assignment w)
      assign name value
      if exports then mark name fun v => { v with exported := true }
      return name ++ "=" ++ value

/-- Redirect streams, and tell whether that could be done. -/
def redirectAll : Nat → List Redirect → Script Bool
  | 0, _ => throw .endless
  | _, [] => return true
  | fuel + 1, r :: rest => do
    modify Machine.holdStreams
    let fault ← match r with
      | .file stream mode target => do
        let path ← joined (← expand fuel .front target)
        match ← openFile mode path with
        | .ok port =>
          modify fun m => m.connect stream port
          pure none
        | .error message => pure (some message)
      | .duplicate stream target => do
        let s ← joined (← expand fuel .front target)
        let m ← get
        if s == "-" then
          set (m.close stream)
          pure none
        else
          match readNat? maxWord32 s with
          | none => die "Syntax error: Bad fd number"
          | some n =>
            match m.streams.lookup n with
            | some port =>
              set (m.connect stream port)
              pure none
            | none => pure (some (s ++ ": Bad file descriptor"))
      | .here stream number => do
        let body := (← get).bodies.getD number []
        let text ← joined (← expand fuel .nowhere body)
        let m ← get
        let (n, m) := m.newSource ⟨[(m.now, text.toList)], some m.now⟩
        set (m.connect stream (.source n))
        pure none
    match fault with
    | some message =>
      complain message 2
      return false
    | none => redirectAll fuel rest

/-- Run the commands of a script one after the other; `ran` tells that there was one before. -/
def runScript : Nat → Bool → Reader → Script Unit
  | 0, _, _ => throw .endless
  | fuel + 1, ran, r => do
    let m ← get
    let r := { r with aliases := m.aliases, bodies := m.bodies }
    match (Reading.next r.depth).run r with
    | (.error fault, r) =>
      modify fun m => { m with line := r.line }
      die ("Syntax error: " ++ fault.message)
    | (.ok none, _) => unless ran do finish 0
    | (.ok (some command), r) =>
      modify fun m => { m with bodies := r.bodies }
      match command with
      | some c =>
        eval fuel false c
        runScript fuel true r
      | none => runScript fuel ran r

/-- Run the commands of a text. -/
def runText : Nat → String → Script Unit
  | 0, _ => throw .endless
  | fuel + 1, text => runScript fuel false { rest := text.toList }

/-- Run something to the end of its process, and then the commands for the end. -/
def endProcess : Nat → Script Unit → Script Unit
  | 0, _ => throw .endless
  | fuel + 1, s => do
    match ← outcome s with
    | .error .endless => throw .endless
    | _ =>
      let m ← get
      match m.traps.get? "EXIT" with
      | none => return
      | some action =>
        set { m with traps := m.traps.remove "EXIT", endStatus := some m.status, tested := false }
        match ← outcome (runText fuel action) with
        | .error .endless => throw .endless
        | .error .exit | .error .fail => return
        | _ => finish m.status

/-- Run what is to be run for the signals that came. -/
def answerSignals : Nat → Script Unit
  | 0 => throw .endless
  | fuel + 1 => do
    collectSignals
    let m ← get
    match m.signals with
    | [] => return
    | name :: rest =>
      set { m with signals := rest }
      match m.traps.get? name with
      | some action =>
        runText fuel action
        finish m.status
      | none => pure ()
      answerSignals fuel

/-- Call a function. -/
def callFunction : Nat → Command → List String → Script Unit
  | 0, _, _ => throw .endless
  | fuel + 1, body, args => do
    let before := (← get).toProcess
    modify fun m => { m with frames := [] :: m.frames, loops := 0 }
    setArguments args
    let result ← outcome (eval fuel false body)
    restoreVariables ((← get).frames.headD [])
    modify fun m => { m with arguments := before.arguments, frames := before.frames
                             loops := before.loops, optionNumber := before.optionNumber
                             optionOffset := before.optionOffset }
    match result with
    | .error .comeBack => return
    | result => resumeWith result

/-- Run a command of the shell itself. An error ends the process only in a special command. -/
def callBuiltin : Nat → Bool → String → List String → Script Unit
  | 0, _, _, _ => throw .endless
  | fuel + 1, isSpecial, name, args => do
    let before := (← get).running
    modify fun m => { m with running := some name }
    let result ← outcome (match builtin? name args with
      | some s => s
      | none => runWithin fuel name args)
    if ← ask (·.refused) then complain (name ++ ": I/O error") 1
    modify fun m => { m with running := before, refused := false }
    match result with
    | .error .fail => if isSpecial then throw .fail
    | result => resumeWith result

/-- The commands of the shell that run other commands. -/
def runWithin : Nat → String → List String → Script Unit
  | 0, _, _ => throw .endless
  | fuel + 1, name, args => do
    let args := if args.head? == some "--" then args.tail else args
    match name, args with
    | "eval", args => runText fuel (" ".intercalate args)
    | ".", args =>
      let some file := (← readOptions "" "" args).operands.head? | finish 0
      let m ← get
      let found := (m.programPlaces file).find? fun place => m.present (place ++ file)
      match ← Utility.contentOf (found.getD "" ++ file) with
      | .error .isDirectory => finish 0
      | .error _ =>
        if file.toList.contains '/' then die ("cannot open " ++ file ++ ": No such file")
        else die (file ++ ": not found")
      | .ok text =>
        match ← outcome (runText fuel (String.ofList text)) with
        | .error .comeBack => return
        | result => resumeWith result
    | "exec", [] => finish 0
    | "exec", program :: args =>
      modify fun m => { m with traps := m.traps.filter fun t => t.2 == "" }
      runProgram fuel program args
      throw .exit
    | "command", args =>
      let a ← readOptions "" "pvV" args
      let asked := a.has 'v' || a.has 'V'
      if !asked then callPlain fuel a.operands
      else if a.operands.isEmpty then finish 0
      else if a.has 'V' then describeAll (a.operands.take 1)
      else locateCommand (a.operands.headD "")
    | _, _ => finish 0

/-- Run a command that is no function. -/
def callPlain : Nat → List String → Script Unit
  | 0, _ => throw .endless
  | _, [] => finish 0
  | fuel + 1, name :: args =>
    if isBuiltin name then callBuiltin fuel false name args
    else do
      modify fun m => { m with running := none }
      foreground (runProgram fuel name args)

/-- Run a program in this process. -/
def runProgram : Nat → String → List String → Script Unit
  | 0, _, _ => throw .endless
  | fuel + 1, name, args => do
    let m ← get
    match m.findProgram? name with
    | none =>
      if m.programPlaces name |>.any fun place => m.present (place ++ name) then
        complain (name ++ ": Permission denied") (if name.toList.contains '/' then 126 else 127)
      else complain (name ++ ": not found") 127
    | some (path, number) =>
      modify fun m => { m with running := none }
      if number ≠ 0 then newShell fuel (path :: args)
      else
        let program := baseName path
        match program, args with
        | "sh", args | "dash", args | "bash", args => newShell fuel args
        | "env", args => runEnv fuel args
        | "xargs", args => runXargs fuel args
        | "nohup", program :: args | "nice", program :: args => runProgram fuel program args
        | _, _ =>
          match Utility.program? program args with
          | some s =>
            s
            Utility.checkOutput program
          | none =>
            match builtin? program args with
            | some s =>
              match ← outcome s with
              | .error .fail => return
              | result =>
                Utility.checkOutput program
                resumeWith result
            | none => complain (name ++ ": not found") 127

/-- Run a program with other exported variables, or list them. -/
def runEnv : Nat → List String → Script Unit
  | 0, _ => throw .endless
  | fuel + 1, args =>
    match args with
    | [] => do
      for (name, value) in Utility.environment (← get) do printLine (name ++ "=" ++ value)
      finish 0
    | "-i" :: rest => do
      modify fun m => { m with «variables» := m.variables.map fun (name, v) =>
        (name, if name == "PATH" then v else { v with exported := false }) }
      runEnv fuel rest
    | "-u" :: name :: rest => do
      modify fun m => { m with «variables» := m.variables.remove name }
      runEnv fuel rest
    | arg :: rest =>
      match splitAssignment arg with
      | (name, some value) => do
        modify fun m => { m with
          «variables» := m.variables.put name { value := some value, exported := true } }
        runEnv fuel rest
      | _ => do
        if ((← get).findProgram? arg).isNone then
          Utility.fails "env" ("'" ++ arg ++ "': No such file or directory") 127
        else runProgram fuel arg rest

/-- Run a program with arguments that are read. -/
def runXargs : Nat → List String → Script Unit
  | 0, _ => throw .endless
  | fuel + 1, args => do
    let a := Filter.Arguments.read "nIL" "rt0" false (args.length + 1) {} args
    let text ← readAll
    let command := if a.operands.isEmpty then ["echo"] else a.operands
    let calls := match a.value? 'I' with
      | some mark =>
        (linesOf text).map fun line =>
          command.map fun (s : String) => (String.ofList line).intercalate (s.splitOn mark)
      | none =>
        let words := if a.has '0' then
            ((splitEach '\x00' text).filter fun (cs : List Char) => !cs.isEmpty).map
              String.ofList
          else quotedWords none none text
        let count := (((a.value? 'n').or (a.value? 'L')).bind smallNumber?).getD (words.length + 1)
        if words.isEmpty then if a.has 'r' then [] else [command]
        else (chunksOf (max count 1) words).map (command ++ ·)
    finish 0
    for call in calls do
      let before := (← get).status
      foreground (runProgram fuel (call.headD "") call.tail)
      let status := (← get).status
      finish (if status = 0 then before else if status < 126 then 123 else status)

/-- Run a script in a new shell, in this process. -/
def newShell : Nat → List String → Script Unit
  | 0, _ => throw .endless
  | fuel + 1, args => do
    let (letters, rest) := shellOptions (args.length + 1) [] args
    let isOn (o : Char × String) : Bool := letters.contains o.1
    modify fun m => { m with
      «variables» := ownVariables (m.variables.filterMap fun (name, v) =>
        if v.exported then some (name, { v with readOnly := false }) else none)
      functions := [], aliases := [], frames := [], loops := 0, children := [], lastJob := none
      isShell := true
      traps := m.traps.filter fun t => t.2 == "", status := 0, line := 1, tested := false
      running := none, endStatus := none
      options := ((optionNames.filter isOn).map (·.1)).reverse }
    let (name, text, arguments) ← match letters.contains 'c', rest with
      | true, text :: more => pure (more.headD "sh", some text, more.tail)
      | true, [] => pure ("sh", none, [])
      | false, [] => do
        let text ← readAll
        pure ("sh", some (String.ofList text), [])
      | false, file :: more => do
        if letters.contains 's' then
          let text ← readAll
          pure ("sh", some (String.ofList text), file :: more)
        else
          match ← Utility.contentOf file with
          | .ok text => pure (file, some (String.ofList text), more)
          | .error _ => pure (file, none, more)
    modify fun m => { m with name }
    setArguments arguments
    match text with
    | some text => endProcess fuel (runText fuel text)
    | none =>
      let reason := if letters.contains 'c' then "-c requires an argument"
        else "cannot open " ++ name ++ ": No such file"
      warn ("sh: 0: " ++ reason ++ "\n")
      finish 2

/-- Run a simple command. -/
def evalSimple : Nat → Bool → List (String × Word) → List Word → List Redirect → Script Unit
  | 0, _, _, _, _ => throw .endless
  | fuel + 1, isLast, assignments, words, redirects => do
    modify fun m => { m with outputStatus := none }
    let command ← commandFields fuel words
    let before := (← get).streams
    let isRedirected ← redirectAll fuel redirects
    match command with
    | [] =>
      if isRedirected then
        let assigned ← assignAll fuel false assignments
        trace fuel before assigned []
        modify fun m => { m with status := m.outputStatus.getD 0 }
      restoreStreams before
    | name :: args =>
      let isSpecial := specialCommands.contains name
      if !isRedirected then
        restoreStreams before
        if isSpecial then throw .fail
      else if isSpecial then
        trace fuel before (← assignAll fuel false assignments) command
        let result ← outcome (callBuiltin fuel true name args)
        unless name == "exec" && args.isEmpty do restoreStreams before
        resumeWith result
      else
        let m ← get
        let saved := assignments.map fun (name, _) => (name, m.variables.get? name)
        trace fuel before (← assignAll fuel true assignments) command
        let function := m.functions.get? name
        let isProgram := function.isNone && !isBuiltin name
        if isProgram then track name
        let result ← outcome (match function with
          | some body => callFunction fuel body args
          | none =>
            if !isProgram then callBuiltin fuel false name args
            else if isLast then do
              let p ← isolated (runProgram fuel name args)
              modify fun m => { m with endSignal := p.endSignal }
            else foreground (runProgram fuel name args))
        restoreVariables saved
        unless isLast && isProgram do restoreStreams before
        resumeWith result

/-- Run the commands of a pipeline from a time on, the first one with a source as its input. The
time at which the last one ends, and the signals that ended them. -/
def evalStages : Nat → Nat → Option Nat → List Command → Script (Nat × List (Option Nat))
  | 0, _, _, _ => throw .endless
  | _, start, _, [] => return (start, [])
  | fuel + 1, start, input, stage :: rest => do
    let begin (m : Machine) : Machine :=
      let m := { m with now := start }
      input.elim m fun n => m.connect 0 (.source n)
    if rest.isEmpty then
      let (p, endless) ← inProcess do
        modify begin
        endProcess fuel (eval fuel true stage)
      if endless then throw .endless
      finish (p.status % 256)
      return (p.now, [p.endSignal])
    else
      let (n, m) := (← get).newBuffer
      set m
      let (p, endless) ← inProcess do
        modify fun m => (begin m).connect 1 (.buffer n)
        endProcess fuel (eval fuel true stage)
      let m ← get
      let b := m.system.buffers.getD n {}
      if endless && b.chunks.isEmpty then throw .endless
      let (k, m) := m.newSource ⟨b.inOrder, if endless then none else some b.closedAt⟩
      set m
      let (time, signals) ← evalStages fuel start (some k) rest
      return (if endless then time else max time p.now, p.endSignal :: signals)

/-- The body of the first clause with a pattern that stands for a text. -/
def chooseClause : Nat → String → List (List Word × Option Command) →
    Script (Option Command)
  | 0, _, _ => throw .endless
  | _, _, [] => return none
  | fuel + 1, subject, (patterns, body) :: rest => do
    let found ← patterns.anyM fun w => do
      let pieces ← expand fuel .front w
      ask fun m => matchesPattern (patternOf (m.marksOf pieces)) subject.toList
    if found then return body else chooseClause fuel subject rest

/-- Run a command. -/
def eval : Nat → Bool → Command → Script Unit
  | 0, _, _ => throw .endless
  | fuel + 1, isLast, .simple line assignments words redirects => do
    if (← get).has 'n' then return
    modify fun m => { m with line }
    evalSimple fuel isLast assignments words redirects
    answerSignals fuel
    checkFailure
  | fuel + 1, isLast, .redirected body redirects => do
    let before := (← get).streams
    if ← redirectAll fuel redirects then
      let result ← outcome (eval fuel isLast body)
      unless isLast do restoreStreams before
      resumeWith result
    else restoreStreams before
  | fuel + 1, _, .pipeline parts => do
    modify fun m => m.takePlace.2
    let (time, signals) ← evalStages fuel (← get).now none parts
    modify fun m => (m.waitUntil time).noteEnds
    signals.forM reportEnd
    checkFailure
  | fuel + 1, _, .negated body => do
    tested (eval fuel false body)
    finish (if ← succeeded then 1 else 0)
  | fuel + 1, isLast, .both first second => do
    tested (eval fuel false first)
    if ← succeeded then eval fuel isLast second
  | fuel + 1, isLast, .either first second => do
    tested (eval fuel false first)
    unless ← succeeded do eval fuel isLast second
  | fuel + 1, isLast, .sequence first second => do
    eval fuel false first
    eval fuel isLast second
  | fuel + 1, _, .background body => do
    let number := (← get).system.jobs + 1
    let (place, m) := (← get).takePlace
    set (m.onSystem fun s => { s with jobs := number })
    let (p, endless) ← inProcess do
      modify fun m => { m.connect 0 (.device .null) with job := number }
      let result ← outcome (endProcess fuel (eval fuel true body))
      if let .error .endless := result then waitUntil forever
      resumeWith result
    let endsAt := if endless then none else some p.now
    let stages := match body with
      | .pipeline parts => parts.length
      | _ => 1
    let job : Job :=
      { number, place, stages, status := p.status % 256, endsAt, signal := p.endSignal }
    modify fun m => { m with children := job :: m.children, lastJob := some number, status := 0 }
  | fuel + 1, isLast, .subshell body => do
    if isLast then
      modify Machine.child
      eval fuel true body
    else
      foreground (endProcess fuel (eval fuel true body))
      answerSignals fuel
      checkFailure
  | fuel + 1, isLast, .conditional test body other => do
    tested (eval fuel false test)
    if ← succeeded then eval fuel isLast body
    else
      match other with
      | some other => eval fuel isLast other
      | none => finish 0
  | fuel + 1, _, .loop inverted test body => do
    let loops := (← get).loops
    modify fun m => { m with loops := loops + 1 }
    let holds : Script (Except Signal Bool) := do
      match ← outcome (tested (eval fuel false test)) with
      | .ok () => return .ok ((← succeeded) != inverted)
      | .error signal => return .error signal
    let result ← outcome (repeatWhile holds (eval fuel false body) (maxRounds + 1) 0)
    modify fun m => { m with loops }
    resumeWith result
  | fuel + 1, _, .each name words body => do
    let items ← match words with
      | none => ask fun m => m.arguments
      | some ws => List.flatten <$> ws.mapM (fields fuel)
    let loops := (← get).loops
    modify fun m => { m with loops := loops + 1, status := if items.isEmpty then 0 else m.status }
    let round (item : String) : Script Unit := do
      assign name item
      eval fuel false body
    let result ← outcome (repeatOver round items)
    modify fun m => { m with loops }
    resumeWith result
  | fuel + 1, isLast, .choice subject clauses => do
    let s ← joined (← expand fuel .front subject)
    match ← chooseClause fuel s clauses with
    | some body => eval fuel isLast body
    | none => finish 0
  | _ + 1, _, .define name body => do
    modify fun m => { m with functions := m.functions.put name body, status := 0 }

end

end Flowline.Shell
