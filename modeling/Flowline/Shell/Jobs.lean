import Flowline.Shell.Argument

/-!
# Jobs and signals

The commands about the jobs that a process has in the background and about signals: `trap`, `kill`,
`wait` and `jobs`. A job keeps its place among the jobs until it was listed as ended, or until a
new process takes the place after a command has waited for the job.
-/

namespace Flowline.Shell

open Script

/-! ## Traps -/

/-- The signal that an argument names. -/
def signal? (s : String) : Option (Nat × String) :=
  match smallNumber? s with
  | some n => signalNames.find? (·.1 = n)
  | none => signalNames.find? (·.2 == s.map Char.toUpper)

/-- Set, remove or list what is run when a signal comes. -/
def setTraps (args : List String) : Script Unit := do
  let args := (← readOptions "" "" args).operands
  let isReset := args.length = 1 || (args.head?.bind signal?).any fun _ =>
    (args.head?.bind smallNumber?).isSome
  finish 0
  if args.isEmpty then
    for (_, name) in signalNames do
      match (← get).traps.get? name with
      | some action => printLine ("trap -- " ++ quoteText action ++ " " ++ name)
      | none => pure ()
  else setAll (if isReset then "-" else args.headD "-") (if isReset then args else args.tail)
where
  /-- Set what is run for signals, up to one that there is not. -/
  setAll (action : String) : List String → Script Unit
    | [] => return
    | s :: rest =>
      match signal? s with
      | none => do
        warn ("trap: " ++ s ++ ": bad trap\n")
        finish 1
      | some (_, name) => do
        modify fun m => { m with
          traps := if action == "-" then m.traps.remove name else m.traps.put name action }
        setAll action rest

/-! ## Naming jobs -/

/-- The job that an argument names by a percent sign and a place, or by its age; the newest job is
the current one. -/
def jobOf (name : String) : Script Job := do
  let jobs := (← get).children
  let current : Script Job :=
    match jobs with
    | job :: _ => return job
    | [] => die "No current job"
  match name.toList with
  | ['%'] | ['%', '%'] | ['%', '+'] => current
  | ['%', '-'] =>
    match jobs with
    | _ :: job :: _ => return job
    | _ => die "No previous job"
  | '%' :: cs =>
    let place := smallNumber? (String.ofList cs)
    match jobs.find? fun j => some j.place == place with
    | some job => return job
    | none => die ("No such job: " ++ name)
  | _ => die ("No such job: " ++ name)

/-- The number of a process that an argument names by a number; the numbers of jobs count from
1000, which is this shell. -/
def processNumber? (s : String) : Option Nat :=
  ((smallNumber? s).filter (1000 ≤ ·)).map (· - 1000)

/-! ## Sending signals -/

/-- The signals that end no process. -/
def harmless (signal : String) : Bool := ["CHLD", "CONT", "URG", "WINCH"].contains signal

/-- Send a signal to this process. -/
def sendSelf (signal : Nat × String) : Script Unit := do
  let m ← get
  if signal.1 = 0 then return
  else if !m.isShell then
    set (m.onSystem fun s => { s with posted := s.posted ++ [(m.now, signal.2)] })
  else
    match m.traps.get? signal.2 with
    | some "" => return
    | some _ => set { m with signals := m.signals ++ [signal.2] }
    | none =>
      unless harmless signal.2 do
        set { m with endSignal := some signal.1, traps := m.traps.remove "EXIT" }
        finish (128 + signal.1)
        throw .exit

/-- Send a signal to a job, which then ends. -/
def sendJob (signal : Nat × String) (job : Job) : Script Unit := do
  let m ← get
  if signal.1 != 0 && !harmless signal.2 && job.endsAt.all (m.now < ·) then
    let m := m.onJob job.number fun j =>
      { j with status := 128 + signal.1, endsAt := some m.now, signal := some signal.1 }
    set (m.onSystem fun s =>
      { s with buffers := s.buffers.map fun b => b.cutJob job.number m.now })

/-- Send a signal to a process. Jobs have no groups of processes of their own, so that a signal for
all of a job finds none. -/
def send (signal : Nat × String) (target : String) : Script Unit := do
  let missing : Script Unit := complain "No such process\n" 1
  let m ← get
  match target.toList with
  | '%' :: _ =>
    discard (jobOf target)
    missing
  | _ =>
    if (decimal? target).isNone then die ("Illegal number: " ++ target)
    else if target == "0" && signal.1 = 0 then return
    else
      match processNumber? target with
      | none => missing
      | some 0 => sendSelf signal
      | some number =>
        match m.children.find? fun j => j.number = number && !j.noted with
        | some job => sendJob signal job
        | none => missing

/-- List the signals, or name the one of a number or of a status. -/
def listSignals (args : List String) : Script Unit := do
  match args with
  | [] => for (n, name) in signalNames do printLine (if n = 0 then "0" else name)
  | s :: _ =>
    let n ← numberOf s
    match signalNames.lookup (if 128 < n then n - 128 else n) with
    | some name => if n = 0 then invalid s else printLine name
    | none => invalid s
where
  /-- Tell that there is no such signal. -/
  invalid (s : String) : Script Unit := die ("invalid signal number or exit status: " ++ s)

/-- Send signals to processes, or list the signals. -/
def kill (args : List String) : Script Unit := do
  finish 0
  let asSignal : Option (Nat × String) :=
    match args.head?.map String.toList with
    | some ('-' :: cs) => signalGiven? (String.ofList cs)
    | _ => none
  match args.head?.map (·.toList.head?), asSignal with
  | none, _ => usage
  | some (some '-'), some signal => deliver signal args.tail
  | some (some '-'), none =>
    let a ← readOptions "s" "l" args
    let signal ← match a.value? 's' with
      | none => pure none
      | some name =>
        match signalGiven? name with
        | some signal => pure (some signal)
        | none => die ("invalid signal number or name: " ++ name)
    if a.has 'l' then listSignals a.operands
    else deliver (signal.getD (15, "TERM")) a.operands
  | _, _ => deliver (15, "TERM") args
where
  /-- The signal of a number, or of a name that is not that of the end. -/
  signalGiven? (s : String) : Option (Nat × String) :=
    (signal? s).filter fun signal => signal.1 != 0 || (smallNumber? s).isSome
  /-- Send a signal to processes. -/
  deliver (signal : Nat × String) (targets : List String) : Script Unit :=
    if targets.isEmpty then usage else targets.forM (send signal)
  /-- Tell how the command is used. -/
  usage : Script Unit :=
    die ("Usage: kill [-s sigspec | -signum | -sigspec] [pid | job]... or\n" ++
      "kill -l [exitstatus]")

/-! ## Waiting -/

/-- Take the signals that were sent to this shell until now. -/
def collectSignals : Script Unit :=
  modify fun m =>
    if m.isShell && !m.system.posted.isEmpty then
      let (due, later) := m.system.posted.partition fun s => s.1 ≤ m.now
      { m.onSystem (fun s => { s with posted := later }) with
        signals := m.signals ++ due.map (·.2) }
    else m

/-- Wait for a job, and tell whether it has ended; a signal that is to be answered ends the
waiting before that. -/
def waitFor (job : Job) : Script Bool := do
  let m ← get
  let answered (s : Nat × String) : Bool :=
    (m.traps.get? s.2).any (· != "") && job.endsAt.all (s.1 < ·)
  match m.system.posted.find? fun s => m.isShell && answered s with
  | some (time, name) =>
    waitUntil time
    collectSignals
    finish (128 + ((signal? name).map (·.1)).getD 0)
    return false
  | none =>
    match job.endsAt with
    | none => throw .endless
    | some time =>
      waitUntil time
      modify fun m => m.onJob job.number fun j => { j with noted := true, waited := true }
      return true

/-- Wait for jobs one after the other, and tell whether all have ended. -/
def waitForAll : List Job → Script Bool
  | [] => return true
  | job :: rest => do if ← waitFor job then waitForAll rest else return false

/-- Wait for jobs, or for all of them. -/
def waitJobs (args : List String) : Script Unit := do
  let args := (← readOptions "" "" args).operands
  finish 0
  if args.isEmpty then
    if ← waitForAll (← get).children.reverse then finish 0
  for arg in args do
    let job ← if arg.toList.head? == some '%' then some <$> jobOf arg
      else do
        discard (numberOf arg)
        let number := processNumber? arg
        ask fun m => m.children.find? fun j => some j.number == number
    match job with
    | none => finish 127
    | some job =>
      if ← waitFor job then
        unless job.noted do reportEnd job.signal
        finish job.status

/-! ## Listing jobs -/

/-- How a job is at a time. -/
def Job.describe (job : Job) (now : Nat) : String :=
  if job.endsAt.any (· ≤ now) then
    match job.signal.bind signalReport? with
    | some report => report
    | none => if job.status = 0 then "Done" else "Done(" ++ Json.intText job.status ++ ")"
  else "Running"

/-- List a job, and forget it if it has ended. -/
def listJob (shows : Char → Bool) (job : Job) : Script Unit := do
  modify Machine.noteEnds
  let m ← get
  let process := Json.intText (1000 + job.number)
  if shows 'p' then printLine process
  else
    let mark := match m.children.map (·.number) with
      | current :: others =>
        if current = job.number then '+' else if others.head? == some job.number then '-' else ' '
      | [] => ' '
    let line := "[" ++ Json.intText job.place ++ "] " ++ String.singleton mark ++ " " ++
      (if shows 'l' then process ++ " " else "") ++ job.describe m.now
    let blanks := List.replicate (max 1 (33 - line.length)) ' '
    let others := if shows 'l' then [] else (List.replicate (job.stages - 1) " | ".toList).flatten
    print (line.toList ++ blanks ++ others ++ ['\n'])
    if job.endsAt.any (· ≤ m.now) then
      modify fun m => { m with children := m.children.filter (·.number != job.number) }

/-- List jobs, or all of them. -/
def listJobs (args : List String) : Script Unit := do
  let a ← readOptions "" "lp" args
  finish 0
  if a.operands.isEmpty then for job in (← get).children do listJob a.has job
  for name in a.operands do listJob a.has (← jobOf name)

/-- Move a job to the foreground or on, which takes job control. -/
def moveJob (args : List String) : Script Unit := do
  let a ← readOptions "" "" args
  discard (jobOf (a.operands.headD "%"))
  die ("job " ++ a.operands.headD "(null)" ++ " not created under job control")

end Flowline.Shell
