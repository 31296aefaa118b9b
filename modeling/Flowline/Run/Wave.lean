import Flowline.Node.Plan
import Flowline.Run.Settle

/-!
# Waves

The nodes of a wave begin one after the other. A node whose service answers without waiting ends
before the next one begins; the others wait side by side and end in the order in which they are
due. A node ends at its time limit if its service would answer later. Nothing that ends after the
run was cancelled counts.
-/

namespace Flowline

/-- What all nodes of a wave see. -/
structure WaveView where
  integrations : List Integration
  previous : Entries Json
  /-- The outputs that can be seen. -/
  data : Json
  «variables» : Entries String

/-- An execution of a node that is over: what it came to, and how long it took. -/
structure Ended where
  execution : Execution
  durationMs : Nat

/-- A node that waits for its service. -/
structure Waiting where
  task : Task
  plan : Plan
  treatment : Treatment
  timeoutMs : Nat
  begun : Nat

namespace Waiting

/-- The service answers in time. -/
def inTime (j : Waiting) : Bool := j.treatment.delayMs ≤ j.timeoutMs

/-- How long the node waits. -/
def waitMs (j : Waiting) : Nat := min j.treatment.delayMs j.timeoutMs

/-- When the node ends. -/
def due (j : Waiting) : Nat := j.begun + j.waitMs

end Waiting

/-- A node of a wave: dropped or ended, or waiting. -/
inductive Started where
  | over (ended : Option Ended)
  | waiting (job : Waiting)

namespace World

variable {ω : Type}

/-- A node begins. -/
def begin_ (h : Host ω) (w : World ω) (t : Task) : World ω :=
  let w := w.modifyState (·.mark t.node.id)
  let w := h.observe (.executing w.engine.state.executing) w
  let w := w.modifyState (·.recordInput t.node.id t.inputValue)
  h.observe (.input t.node.id t.inputValue) w

/-- A node ends; `none` if the run was cancelled meanwhile. -/
def end_ (h : Host ω) (w : World ω) (t : Task) (begun : Nat) (outcome : Outcome) :
    Option Ended × World ω :=
  let w := w.modifyState (·.unmark t.node.id)
  let w := h.observe (.executing w.engine.state.executing) w
  if w.isCancelled then (none, w)
  else (some { execution := .ofOutcome outcome, durationMs := w.now - begun }, w)

/-- A service that has waited cancels the run or glances at the engine, and answers. -/
def answer (h : Host ω) (w : World ω) (treatment : Treatment) : World ω :=
  let w :=
    if treatment.cancels then
      let (accepted, engine) := w.engine.cancel
      h.observe (.cancelled accepted) { w with engine }
    else w
  if treatment.probes then h.observe (.probed w.engine.probe) w else w

/-- A wait is over: the service has answered, or the time is up. -/
def finish (h : Host ω) (w : World ω) (j : Waiting) : Option Ended × World ω :=
  let w := if j.inTime then w.answer h j.treatment else w
  w.end_ h j.task j.begun (j.plan.outcomeAfter j.treatment j.timeoutMs)

/-- The context of a node. -/
def context (h : Host ω) (w : World ω) (view : WaveView) (t : Task) : NodeContext :=
  { nodeId := t.node.id, input := t.inputValue, sources := t.sources
    scope := { data := view.data, env := view.variables }
    integrations := view.integrations, previous := view.previous
    timeoutMs := t.node.timeoutMs w.engine.defaultTimeoutMs
    directory := h.services.directory }

/-- Start a node and go as far as possible without waiting. -/
def start (h : Host ω) (view : WaveView) (w : World ω) (t : Task) : Started × World ω :=
  if w.isCancelled then (.over none, w)
  else
    let w := w.begin_ h t
    let ctx := w.context h view t
    let (plan, store) := t.node.plan ctx w.engine.store
    let w := w.modifyEngine fun e => { e with store }
    match plan.call? with
    | none =>
      let (ended, w) := w.end_ h t w.now (plan.resume (.failed ""))
      (.over ended, w)
    | some call =>
      let w := h.observe (.called call) w
      let job : Waiting :=
        { task := t, plan, treatment := h.services.treat call, timeoutMs := ctx.timeoutMs
          begun := w.now }
      if job.waitMs = 0 then
        let (ended, w) := w.finish h job
        (.over ended, w)
      else (.waiting job, w)

/-- Start the nodes of a wave. -/
def startAll (h : Host ω) (view : WaveView) (w : World ω) : List Task → List Started × World ω
  | [] => ([], w)
  | t :: rest =>
    let (started, w) := w.start h view t
    let (more, w) := w.startAll h view rest
    (started :: more, w)

/-- Let the waits end, in the order given; what ended is listed with its number. -/
def finishAll (h : Host ω) (w : World ω) :
    List (Nat × Waiting) → List (Nat × Option Ended) × World ω
  | [] => ([], w)
  | (number, job) :: rest =>
    let (ended, w) := (h.elapse job.due w).finish h job
    let (more, w) := w.finishAll h rest
    ((number, ended) :: more, w)

end World

/-- The nodes of a wave that wait, with their numbers. -/
def waitingJobs (started : List Started) : List (Nat × Waiting) :=
  started.zipIdx.filterMap fun
    | (.waiting job, number) => some (number, job)
    | (.over _, _) => none

/-- The jobs in the order in which they are due. -/
def byDue (jobs : List (Nat × Waiting)) : List (Nat × Waiting) :=
  jobs.mergeSort fun a b => a.2.due ≤ b.2.due

/-- What each node of a wave came to, in the order of the nodes. -/
def endedInOrder (started : List Started) (finished : List (Nat × Option Ended)) :
    List (Option Ended) :=
  started.zipIdx.map fun
    | (.over ended, _) => ended
    | (.waiting _, number) => (finished.lookup number).join

/-- Run the nodes of a wave to their end. -/
def runWave {ω : Type} (h : Host ω) (view : WaveView) (w : World ω) (tasks : List Task) :
    List (Option Ended) × World ω :=
  let (started, w) := w.startAll h view tasks
  let (finished, w) := w.finishAll h (byDue (waitingJobs started))
  (endedInOrder started finished, w)

end Flowline
