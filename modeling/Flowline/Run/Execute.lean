import Flowline.Graph.Cycle
import Flowline.Run.Skip
import Flowline.Run.Wave

/-!
# Running a workflow

A frame makes one move after the other. First it skips the members that must be skipped. Then it
runs a region that waits and whose predecessors are settled, or else a wave of all members that
are ready, and it ends when there is neither. No move is made once the run was cancelled or asked
to stop. A region runs a frame of its own for each payload of its iterator.
-/

namespace Flowline

/-- What a frame does next. -/
inductive Move where
  | stop
  | region (region : PendingRegion)
  | wave (members : List String)

namespace Frame

/-- The members that are ready. -/
def readyMembers (p : Plane) (f : Frame) : List String :=
  f.members.filter fun id => !f.isSettled id && f.readiness p id == .ready

/-- The next move: a region that is ready, else a wave, else a region that is not. -/
def move (p : Plane) (f : Frame) : Move :=
  match f.pending.find? fun r => f.regionReady p r.iterator with
  | some region => .region region
  | none =>
    match f.readyMembers p with
    | [] => f.pending.head?.elim .stop .region
    | ready => .wave ready

/-- The region does not wait any more. -/
def takeRegion (f : Frame) (iterator : String) : Frame :=
  { f with pending := f.pending.filter (·.iterator != iterator) }

/-- Members begin to run; they are settled from now on. -/
def dispatch (f : Frame) (ids : List String) : Frame := { f with settled := ids ++ f.settled }

/-- The tasks of members. -/
def tasks (p : Plane) (f : Frame) (ids : List String) : List Task :=
  ids.filterMap fun id => (p.graph.node? id).map fun node => { node, input := f.gather p id }

end Frame

/-- The frame of one iteration: the region of the iterator, which shows the payload. -/
def Plane.iterationFrame (p : Plane) (around : Frame) (iterator : String) (number : Nat)
    (payload : Json) : Frame :=
  let region := (p.region? iterator).getD []
  p.frame (p.graph.ids.filter region.contains) ((p.graph.outgoing iterator).map (·.1))
    (around.scope.put iterator payload) (some (iterator, number))

/-- The data of an iterator with the outputs of its iterations. -/
def aggregate (data : Json) (outputs : List (Entries Json)) : Json :=
  let members := match data with
    | .obj members => members
    | other => [("items", other)]
  let iterations := outputs.zipIdx.map fun (outputs, index) =>
    Json.obj [("index", .ofNat index), ("outputs", .obj outputs)]
  .obj (Entries.put members "iterations" (.arr iterations))

/-- Take the end of a region in: the last output of each of its nodes, and the aggregate of its
iterator. -/
def Frame.settleRegion (f : Frame) (r : PendingRegion) (outputs : List (Entries Json)) : Frame :=
  let latest := outputs.foldl Entries.putAll []
  let f := { f with scope := f.scope.putAll latest, outputs := f.outputs.putAll latest }
  f.addOutput r.iterator (aggregate r.data outputs)

/-- What all frames of a run share. -/
structure RunPlan where
  plane : Plane
  integrations : List Integration
  /-- What earlier runs have left at the nodes, by id. -/
  previous : Entries Json

section

variable {ω : Type} (h : Host ω) (run : RunPlan)

/-- Run a wave and settle what ended. -/
def wave (f : Frame) (s : Ongoing ω) (ids : List String) : Frame × Ongoing ω :=
  let tasks := f.tasks run.plane ids
  let view : WaveView :=
    { integrations := run.integrations, previous := run.previous, data := .obj f.scope
      «variables» := s.progress.variables }
  let (ended, world) := runWave h view s.world tasks
  (tasks.zip ended).foldl
    (fun (f, s) (task, ended) =>
      match ended with
      | some e => settle h run.plane f s task e.execution e.durationMs
      | none => (f, s))
    (f.dispatch ids, { s with world })

/-- Run a frame for each payload, numbered from a number on; what each left, in order. -/
def iterations (runChild : Frame → Ongoing ω → Frame × Ongoing ω) (around : Frame)
    (iterator : String) : Nat → List Json → Ongoing ω → List (Entries Json) × Ongoing ω
  | _, [], s => ([], s)
  | number, payload :: rest, s =>
    if s.stopped then ([], s)
    else
      let (child, s) := runChild (run.plane.iterationFrame around iterator number payload) s
      let (more, s) := iterations runChild around iterator (number + 1) rest s
      (child.outputs :: more, s)

/-- Report the end of a region. -/
def reportRegion (s : Ongoing ω) (iterator : String) (data : Json) : Ongoing ω :=
  let w := s.world.reportOutput h iterator data
  let state : NodeState := { result := some { timestamp := w.instant, payload := data } }
  { world := h.observe (.update iterator state) w, progress := s.progress.amend iterator data }

/-- Run a region. -/
def runRegion (runChild : Frame → Ongoing ω → Frame × Ongoing ω) (f : Frame) (s : Ongoing ω)
    (r : PendingRegion) : Frame × Ongoing ω :=
  let f := f.takeRegion r.iterator
  let (outputs, s) := iterations run runChild f r.iterator 0 r.payloads s
  (f.settleRegion r outputs, reportRegion h s r.iterator (aggregate r.data outputs))

/-- Skip the members that must be skipped. -/
def skipUnreached (f : Frame) (s : Ongoing ω) : Frame × Ongoing ω :=
  let after := f.skipAll run.plane
  let skipped := after.settled.filter fun id => !f.isSettled id
  (after, { s with progress := s.progress.skip skipped })

/-- Run a frame for at most so many moves. -/
def runMoves : Nat → Frame → Ongoing ω → Frame × Ongoing ω
  | 0, f, s => (f, s)
  | moves + 1, f, s =>
    if s.stopped then (f, s)
    else
      let (f, s) := skipUnreached run f s
      match f.move run.plane with
      | .stop => (f, s)
      | .region r =>
        let (f, s) := runRegion h run (runMoves moves) f s r
        runMoves moves f s
      | .wave ids =>
        let (f, s) := wave h run f s ids
        runMoves moves f s

end

/-- More moves than a frame over all nodes of the graph can make: in each frame every node runs or
is skipped once, and every region runs once. -/
def Graph.moveBound (g : Graph) : Nat := 2 * g.nodes.length + 2

/-- What a run needs besides the services. -/
structure RunRequest where
  workflow : Workflow
  environment : Environment := {}
  integrations : List Integration := []

/-- The results that earlier runs have left at the nodes. -/
def Workflow.storedResults (w : Workflow) : Entries Json :=
  Entries.ofList (w.nodes.filterMap fun n => n.state.result.map fun r => (n.id, r.payload))

section

variable {ω : Type} (h : Host ω)

/-- The status of the run changes, and is reported. -/
def World.changeStatus (w : World ω) (status : RunStatus) : World ω :=
  h.observe (.status status) (w.modifyState (·.setStatus status w.instant))

/-- A new run begins, and a request to cancel the last one is forgotten. -/
def World.beginRun (w : World ω) (id : Uuid) : World ω :=
  let w := w.modifyEngine fun e => { e with cancelRequested := false }
  h.observe (.status .running) (w.modifyState (·.beginRun id w.instant))

/-- Run all nodes of a graph. -/
def runGraph (request : RunRequest) (g : Graph) (w : World ω) : Ongoing ω :=
  let plane := Plane.ofGraph g
  let run : RunPlan :=
    { plane, integrations := request.integrations, previous := request.workflow.storedResults }
  let start : Ongoing ω :=
    { world := w, progress := { «variables» := request.environment.variables } }
  (runMoves h run g.moveBound (plane.frame g.ids [] [] none) start).2

/-- Run a workflow in the slot that is held, and give the slot back. -/
def executeReserved (request : RunRequest) (w : World ω) :
    Except EngineError RunSummary × World ω :=
  let g := Graph.ofWorkflow request.workflow
  match g.cycleNode? with
  | some id => (.error (.graphCycle id), w.modifyEngine (·.release))
  | none =>
    let (runId, w) := w.freshId
    let startedAt := w.instant
    let s := runGraph h request g (w.beginRun h runId)
    let status := s.progress.finalStatus s.world.isCancelled
    let w := s.world.changeStatus h status
    (.ok { runId, status, results := s.progress.results, startedAt, finishedAt := w.instant },
      w.modifyEngine (·.release))

/-- Take the slot and run a workflow. -/
def execute (request : RunRequest) (w : World ω) : Except EngineError RunSummary × World ω :=
  match w.engine.reserve with
  | .error e => (.error e, w)
  | .ok engine => executeReserved h request { w with engine }

end

end Flowline
