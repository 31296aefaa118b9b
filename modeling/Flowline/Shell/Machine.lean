import Flowline.Json.Writer
import Flowline.Shell.Files
import Flowline.Shell.Signals
import Flowline.Shell.Syntax

/-!
# The machine that commands run on

A `Machine` is a process and the system that it shares with the others. The processes run one
after the other, but each has its own clock, which goes on only while the process sleeps or waits:
what a process writes carries the time at which it was written, and what it reads makes it wait
until it was written. The texts of a machine have one character for each byte.
-/

namespace Flowline.Shell

/-- Text that a process wrote. -/
structure Chunk where
  time : Nat
  /-- The job that the process belongs to. -/
  job : Nat
  text : List Char

/-- What was written to one end of a pipe, and until when jobs kept that end open. -/
structure Buffer where
  chunks : Array Chunk := #[]
  holds : List (Nat × Nat) := []

namespace Buffer

/-- What was written, in order of time. -/
def inOrder (b : Buffer) : List (Nat × List Char) :=
  (b.chunks.toList.mergeSort fun x y => x.time ≤ y.time).map fun c => (c.time, c.text)

/-- All that was written. -/
def text (b : Buffer) : List Char := b.inOrder.flatMap (·.2)

/-- When the last job closed this end. -/
def closedAt (b : Buffer) : Nat := b.holds.foldl (fun t h => max t h.2) 0

/-- A job keeps this end open until a time. -/
def hold (b : Buffer) (job time : Nat) : Buffer :=
  match b.holds.lookup job with
  | some t => if time ≤ t then b else { b with holds := (job, time) :: b.holds.erase (job, t) }
  | none => { b with holds := (job, time) :: b.holds }

/-- A job ends at a time, whatever it did later. -/
def cutJob (b : Buffer) (job time : Nat) : Buffer :=
  { chunks := b.chunks.filter fun c => c.job != job || c.time ≤ time
    holds := b.holds.map fun h => if h.1 == job then (job, min time h.2) else h }

end Buffer

/-- What can be read from a pipe: text, each with the time from which it is there, and the time at
which the text has ended. A pipe that never ends has none. -/
structure Source where
  waiting : List (Nat × List Char)
  closedAt : Option Nat

/-- A file that was opened. -/
structure OpenFile where
  number : Nat
  offset : Nat := 0
  append : Bool := false

/-- What a stream goes to or comes from. -/
inductive Port where
  | buffer (n : Nat)
  | source (n : Nat)
  | opened (n : Nat)
  | device (d : Device)
deriving DecidableEq

/-- What all processes share. -/
structure System where
  files : Files := .standard
  opened : Array OpenFile := #[]
  buffers : Array Buffer := #[{}, {}]
  sources : Array Source := #[]
  jobs : Nat := 0
  /-- The signals that were sent to the first shell, each with its time. -/
  posted : List (Nat × String) := []
  /-- How many rounds loops may still run. -/
  rounds : Nat
  /-- The time after which no round begins. -/
  limit : Nat

/-- A variable. -/
structure Variable where
  value : Option String := none
  exported : Bool := false
  readOnly : Bool := false

/-- A job in the background: how it ends and when, unless it goes on for ever. -/
structure Job where
  number : Nat
  /-- The number by which it stands among the jobs. -/
  place : Nat
  /-- How many processes there are in it. -/
  stages : Nat
  status : Nat
  endsAt : Option Nat
  /-- The signal that ended it. -/
  signal : Option Nat := none
  /-- Its end was noted. -/
  noted : Bool := false
  /-- A command has waited for it. -/
  waited : Bool := false

/-- What a process has of its own. -/
structure Process where
  «variables» : Entries Variable := []
  functions : Entries Command := []
  aliases : Entries String := []
  /-- The programs whose places are known. -/
  tracked : List String := []
  /-- The texts of here documents, by number. -/
  bodies : Array Word := #[]
  name : String := "sh"
  arguments : List String := []
  status : Nat := 0
  directory : String := "/"
  mask : Nat := 0o022
  /-- The letters of the options that are on, the last one first. -/
  options : List Char := []
  streams : List (Nat × Port) := [(0, .device .null), (1, .buffer 0), (2, .buffer 1)]
  traps : Entries String := []
  /-- The signals that came and are not yet answered. -/
  signals : List String := []
  now : Nat := 0
  job : Nat := 0
  children : List Job := []
  lastJob : Option Nat := none
  /-- The process is a shell of its own, and no part of another one. -/
  isShell : Bool := true
  line : Nat := 1
  /-- The small command that runs. -/
  running : Option String := none
  /-- Some output of what runs could not be written. -/
  refused : Bool := false
  /-- The status of what runs is looked at. -/
  tested : Bool := false
  /-- How many loops there are around what runs. -/
  loops : Nat := 0
  /-- For each function that runs, its own variables as they were outside. -/
  frames : List (Entries (Option Variable)) := []
  /-- The number of the argument that `getopts` reads next. -/
  optionNumber : Nat := 1
  /-- How much of the argument before it `getopts` has read, if it is not done with that. -/
  optionOffset : Option Nat := none
  /-- The status of the last output that became part of a word, while a command is expanded. -/
  outputStatus : Option Nat := none
  /-- The status with which the process ends, while the commands for its end run. -/
  endStatus : Option Nat := none
  /-- The signal that ended the process. -/
  endSignal : Option Nat := none

/-- A process and its system. -/
structure Machine extends Process where
  system : System

/-- Why the next command does not run. -/
inductive Signal where
  | exit
  /-- An error that ends the process. -/
  | fail
  | leave (loops : Nat)
  | next (loops : Nat)
  | comeBack
  /-- The commands go on for ever. -/
  | endless

/-- What runs on the machine, and may end early. -/
abbrev Script := ExceptT Signal (StateM Machine)

/-- Write text into a content from an offset on. -/
def writeInto (text : List Char) (offset : Nat) (content : Array Char) : Array Char :=
  if offset = content.size then text.foldl Array.push content
  else
    let filled := content ++ Array.replicate (offset - content.size) '\x00'
    filled.extract 0 offset ++ text.toArray ++
      filled.extract (offset + text.length) filled.size

namespace Machine

/-- The value of a variable. -/
def value? (m : Machine) (name : String) : Option String :=
  (m.variables.get? name).bind Variable.value

/-- An option is on. -/
def has (m : Machine) (letter : Char) : Bool := m.options.contains letter

/-- Change the system. -/
def onSystem (m : Machine) (f : System → System) : Machine := { m with system := f m.system }

/-- Change the files. -/
def onFiles (m : Machine) (f : Files → Files) : Machine :=
  m.onSystem fun s => { s with files := f s.files }

/-- Write text to a port; nothing is written where text is only read. -/
def writeTo (m : Machine) (text : List Char) : Port → Machine
  | .buffer n =>
    let chunk : Chunk := ⟨m.now, m.job, text⟩
    m.onSystem fun s => { s with
      buffers := s.buffers.modify n fun b => { b with chunks := b.chunks.push chunk } }
  | .opened n =>
    match m.system.opened[n]? with
    | none => m
    | some o =>
      let size := (m.system.files.content o.number).size
      let offset := if o.append then size else o.offset
      m.onSystem fun s => { s with
        files := s.files.onContent o.number (writeInto text offset)
        opened := s.opened.set! n { o with offset := offset + text.length } }
  | .device _ | .source _ => m

/-- Text can be written to the stream. -/
def accepts (m : Machine) (stream : Nat) : Bool :=
  match m.streams.lookup stream with
  | some (.source _) | some (.device .full) | none => false
  | some _ => true

/-- Write text to a stream. -/
def write (m : Machine) (stream : Nat) (text : List Char) : Machine :=
  match m.streams.lookup stream with
  | some port => m.writeTo text port
  | none => m

/-- Change where a stream goes. -/
def connect (m : Machine) (stream : Nat) (port : Port) : Machine :=
  { m with streams := (stream, port) :: m.streams.filter (·.1 != stream) }

/-- Close a stream. -/
def close (m : Machine) (stream : Nat) : Machine :=
  { m with streams := m.streams.filter (·.1 != stream) }

/-- Note that the process has its streams open until now. -/
def holdStreams (m : Machine) : Machine :=
  m.streams.foldl (fun m (_, port) =>
    match port with
    | .buffer n =>
      m.onSystem fun s => { s with buffers := s.buffers.modify n (·.hold m.job m.now) }
    | _ => m) m

/-- Wait until a time. -/
def waitUntil (m : Machine) (time : Nat) : Machine := { m with now := max m.now time }

/-- A new pipe, by the number of its buffer. -/
def newBuffer (m : Machine) : Nat × Machine :=
  (m.system.buffers.size, m.onSystem fun s => { s with buffers := s.buffers.push {} })

/-- A new source of text. -/
def newSource (m : Machine) (source : Source) : Nat × Machine :=
  (m.system.sources.size, m.onSystem fun s => { s with sources := s.sources.push source })

/-- A file that is opened. -/
def newOpened (m : Machine) (file : OpenFile) : Nat × Machine :=
  (m.system.opened.size, m.onSystem fun s => { s with opened := s.opened.push file })

/-- The process that begins when this one divides: it has no jobs, and no traps but for signals
that are ignored. -/
def child (m : Machine) : Machine :=
  { m with children := [], loops := 0, signals := [], isShell := false
           traps := m.traps.filter fun t => t.2 == "" }

/-- What is left of this process when it goes on behind one that began as it was. -/
def resume (m : Machine) (p : Process) : Machine := { p with system := m.system }

/-- The first place for a new job, which a job may leave that was waited for. -/
def takePlace (m : Machine) : Nat × Machine :=
  let isFree (n : Nat) : Bool := m.children.all fun j => j.place != n || j.waited
  let place := (((List.range m.children.length).map (· + 1)).find? isFree).getD
    (m.children.length + 1)
  (place, { m with children := m.children.filter (·.place != place) })

/-- Change a job. -/
def onJob (m : Machine) (number : Nat) (f : Job → Job) : Machine :=
  { m with children := m.children.map fun j => if j.number = number then f j else j }

/-- Note the ends of the jobs that have ended. -/
def noteEnds (m : Machine) : Machine :=
  { m with children := m.children.map fun j =>
      if j.endsAt.any (· ≤ m.now) then { j with noted := true } else j }

end Machine

/-- Take the text up to the end of a line or, without `byLine`, all of it: what is taken, whether
an end of a line was, the source after it, and the time at which it was there. -/
def Source.take (byLine : Bool) : List (Nat × List Char) → Option Nat → Nat →
    Option (List Char × Bool × Source × Nat)
  | [], closedAt, time => closedAt.map fun t => ([], false, ⟨[], closedAt⟩, max t time)
  | (t, text) :: rest, closedAt, time =>
    let time := max t time
    match if byLine then text.dropWhile (· != '\n') else [] with
    | _ :: after =>
      some (text.takeWhile (· != '\n'), true, ⟨(t, after) :: rest, closedAt⟩, time)
    | [] => (Source.take byLine rest closedAt time).map fun r => (text ++ r.1, r.2)

namespace Script

/-- Tell something about the machine. -/
def ask {α : Type} (f : Machine → α) : Script α := return f (← get)

/-- End a command with a status. -/
def finish (status : Nat) : Script Unit := modify fun m => { m with status }

/-- Write to the stream for complaints. -/
def warn (text : String) : Script Unit :=
  modify fun m => m.write 2 text.toList

/-- A complaint with the place where it arises. -/
def located (m : Machine) (message : String) : String :=
  let command := match m.running with
    | some name => name ++ ": "
    | none => ""
  m.name ++ ": " ++ Json.intText m.line ++ ": " ++ command ++ message ++ "\n"

/-- Complain, and end a command with a status. -/
def complain (message : String) (status : Nat) : Script Unit := do
  warn (located (← get) message)
  finish status

/-- Complain, and end the process. -/
def die {α : Type} (message : String) : Script α := do
  complain message 2
  throw .fail

/-- Write to the output. -/
def print (text : List Char) : Script Unit := do
  if (← get).accepts 1 then modify fun m => m.write 1 text
  else if !text.isEmpty then modify fun m => { m with refused := true }

/-- Write a line to the output. -/
def printLine (line : String) : Script Unit := print (line.toList ++ ['\n'])

/-- Run something, and tell how it ended. -/
def outcome (s : Script Unit) : Script (Except Signal Unit) := fun m =>
  let (result, m) := s m
  (.ok result, m)

/-- Go on as something ended. -/
def resumeWith : Except Signal Unit → Script Unit
  | .ok () => return
  | .error signal => throw signal

/-- Wait until a time. -/
def waitUntil (time : Nat) : Script Unit := modify fun m => m.waitUntil time

/-- Read from a stream: a line, or all that there is, and whether a line was ended. -/
def readFrom (byLine : Bool) (stream : Nat) : Script (List Char × Bool) := do
  let m ← get
  match m.streams.lookup stream with
  | some (.opened n) =>
    match m.system.opened[n]? with
    | none => return ([], false)
    | some o =>
      let content := m.system.files.content o.number
      let text := (content.extract o.offset content.size).toList
      let line := if byLine then text.takeWhile (· != '\n') else text
      let ended := line.length < text.length
      let offset := o.offset + line.length + if ended then 1 else 0
      set (m.onSystem fun s => { s with opened := s.opened.set! n { o with offset } })
      return (line, ended)
  | some (.source n) =>
    match m.system.sources[n]? with
    | none => return ([], false)
    | some s =>
      match Source.take byLine s.waiting s.closedAt m.now with
      | some (text, ended, rest, time) =>
        set ((m.onSystem fun s => { s with sources := s.sources.set! n rest }).waitUntil time)
        return (text, ended)
      | none => throw .endless
  | _ => return ([], false)

/-- Read all that there is on the input. -/
def readAll : Script (List Char) := return (← readFrom false 0).1

/-- A time after all that can be waited for. -/
def forever : Nat := Nat.pow 10 15

/-- Run something in a process of its own, which begins now. What it was at its end, and whether
it goes on for ever. The process that began it goes on as it was. -/
def inProcess (s : Script Unit) : Script (Process × Bool) := fun m =>
  let before := m.toProcess
  let (result, m) := s m.child
  let endless := match result with
    | .error .endless => true
    | _ => false
  let m := m.holdStreams
  (.ok (m.toProcess, endless), m.resume before)

/-- Tell that a signal has ended a process. -/
def reportEnd (signal : Option Nat) : Script Unit :=
  match signal.bind signalReport? with
  | some report => warn (report ++ "\n")
  | none => pure ()

/-- Run something in a process of its own, and wait for its end: what the process was then. -/
def isolated (s : Script Unit) : Script Process := do
  modify fun m => m.takePlace.2
  let (p, endless) ← inProcess s
  if endless then throw .endless
  modify fun m => { m.waitUntil p.now with status := p.status % 256 }.noteEnds
  return p

/-- Run something in a process of its own, and tell if a signal has ended it. -/
def foreground (s : Script Unit) : Script Unit := do reportEnd (← isolated s).endSignal

/-- Run something in a process of its own, and catch what it writes until its output is closed. -/
def capture (s : Script Unit) : Script (List Char) := do
  let (n, m) := (← get).newBuffer
  set m
  foreground do
    modify fun m => { m.connect 1 (.buffer n) with tested := false }
    s
  let b := (← get).system.buffers.getD n {}
  waitUntil b.closedAt
  return b.text

/-- Count a round of a loop. -/
def countRound : Script Unit := do
  if ← ask fun m => m.system.rounds = 0 || m.system.limit < m.now then throw .endless
  modify fun m => m.onSystem fun s => { s with rounds := s.rounds - 1 }

/-- What a round of a loop that ended early means for the loop: it goes on, it ends, or the end is
for what is around it. -/
def afterRound (result : Except Signal Unit) : Script Bool := do
  match result with
  | .ok () | .error (.next 0) => return true
  | .error (.leave 0) => return false
  | .error (.leave (n + 1)) => throw (.leave n)
  | .error (.next (n + 1)) => throw (.next n)
  | .error signal => throw signal

/-- Run a loop while its test holds. It ends with the status of its last round, or with the given
one if there is none. -/
def repeatWhile (test : Script (Except Signal Bool)) (body : Script Unit) :
    Nat → Nat → Script Unit
  | 0, _ => throw .endless
  | fuel + 1, last => do
    countRound
    match ← test with
    | .error signal =>
      if ← afterRound (.error signal) then repeatWhile test body fuel last
    | .ok false => finish last
    | .ok true =>
      if ← afterRound (← outcome body) then repeatWhile test body fuel (← get).status

/-- Run a loop over texts. -/
def repeatOver (body : String → Script Unit) : List String → Script Unit
  | [] => return
  | s :: rest => do
    countRound
    if ← afterRound (← outcome (body s)) then repeatOver body rest

end Script

end Flowline.Shell
