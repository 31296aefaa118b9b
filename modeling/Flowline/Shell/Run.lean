import Flowline.Service
import Flowline.Shell.Eval
import Flowline.Text.Blank
import Flowline.Text.Bytes

/-!
# Answering command requests

A `CommandRequest` is answered by running its command on a fresh machine. The request fails if its
directory is not there, if the shell is in none of the directories where programs are looked for,
or if the command runs for longer than the time limit.
-/

namespace Flowline.Shell

/-- How deeply commands may be nested. -/
def maxDepth : Nat := 20000

/-- A character that no command, directory or variable may hold. -/
def holdsNull (s : String) : Bool := s.toList.any (·.toNat == 0)

/-- A text with one character for each byte. -/
def bytesOf (s : String) : String :=
  String.ofList (s.toUTF8.toList.map fun b => Char.ofNat b.toNat)

/-- The text that characters for bytes stand for. -/
def textOfBytes (cs : List Char) : String :=
  String.ofList (decodeBytes (cs.map fun c => c.toNat.toUInt8))

/-- The directories where programs are looked for, unless a request says otherwise. -/
def usualPath : String := "/usr/local/sbin:/usr/local/bin:/usr/sbin:/usr/bin:/sbin:/bin"

/-- The variables that a request adds to the usual ones. -/
def environmentOf (env : List (String × String)) : Entries String :=
  let given := env.map fun (name, value) =>
    let (name, value) := splitAssignment (bytesOf name ++ "=" ++ bytesOf value)
    (name, value.getD "")
  Entries.putAll [("PATH", usualPath), ("HOME", "/root")] given

/-- The directory by the name that the environment gives it, if that is one. -/
def nameOfDirectory (fs : Files) (given : Option String) (path : String) : String :=
  match given with
  | none => path
  | some s =>
    match s.toList.head?, fs.locate true "/" s with
    | some '/', .ok names => if Files.pathOf names == path then s else path
    | _, _ => path

/-- Why the shell is in none of the directories where programs are looked for: the last of them
decides. -/
def missingShell (environment : Entries String) (path : String) : FileFault :=
  let places := searchPath ((environment.get? "PATH").getD "")
  match Files.standard.find true path (places.getLastD "" ++ "sh") with
  | .error .notDirectory => .notDirectory
  | _ => .missing

/-- The number by which a system knows a fault. -/
def faultNumber : FileFault → Nat
  | .missing => 2
  | .notDirectory => 20
  | .isDirectory => 21
  | .present => 17
  | .notEmpty => 39
  | .tooManyLinks => 40

/-- The message of a request that could not begin. -/
def refusal (fault : FileFault) : String :=
  fault.message ++ " (os error " ++ Json.intText (faultNumber fault) ++ ")"

/-- The machine that begins in a directory with an environment and a time limit. -/
def startOf (environment : Entries String) (path : String) (limit : Nat) : Machine :=
  let directory := nameOfDirectory .standard (environment.get? "PWD") path
  let exported (value : String) : Variable := { value := some value, exported := true }
  let given : Entries Variable := environment.filterMap fun (name, value) =>
    if isName name then some (name, exported value) else none
  let given := given.put "PWD" (exported directory)
  { «variables» := ownVariables given
    directory
    system := { rounds := maxRounds, limit } }

/-- Run a command in a directory with a time limit, if there is one. -/
def run (command : String) (directory : Option String) (env : List (String × String))
    (timeoutMs : Option Nat) : Except String CommandOutput :=
  let named := directory.filter fun d => trim d != ""
  if ([command] ++ named.toList ++ env.map (·.1) ++ env.map (·.2)).any holdsNull then
    .error "nul byte found in provided data"
  else
    let environment := environmentOf env
    let fs := Files.standard
    match fs.find true "/" (bytesOf (named.getD "/")) with
    | .error fault => .error (refusal fault)
    | .ok (names, entry) =>
      if entry.node ≠ .directory then .error (refusal .notDirectory)
      else
        let m := startOf environment (Files.pathOf names) (timeoutMs.getD Script.forever)
        if (m.findProgram? "sh").isNone then
          .error (refusal (missingShell environment (Files.pathOf names)))
        else
          let (result, m) := (endProcess maxDepth (runText maxDepth (bytesOf command))) m
          let m := m.holdStreams
          let buffer (n : Nat) : Buffer := m.system.buffers.getD n {}
          let elapsedMs := max m.now (max (buffer 0).closedAt (buffer 1).closedAt)
          let endless := match result with
            | .error .endless => true
            | _ => false
          match timeoutMs.filter fun ms => endless || ms ≤ elapsedMs with
          | some ms => .error ("command timed out after " ++ Json.intText ms ++ " ms")
          | none =>
            .ok { stdout := textOfBytes (buffer 0).text, stderr := textOfBytes (buffer 1).text
                  exitCode := some (m.status % 256) }

/-- Answer a request. -/
def answer (r : CommandRequest) : Except String CommandOutput :=
  run r.command r.cwd r.env (some r.timeoutMs)

end Flowline.Shell
