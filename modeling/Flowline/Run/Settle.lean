import Flowline.Run.Branch
import Flowline.Run.Frame
import Flowline.Run.Progress
import Flowline.Run.World

/-!
# Settling an execution

When a wave is over, its executions are settled one after the other. Settling one gives its output
to the frame, settles the edges behind its node, counts it in the results of the run, and reports
it. An iterator that succeeded leaves a region to run.
-/

namespace Flowline

/-- A node that is about to run, with what comes in. -/
structure Task where
  node : Node
  input : Entries Json

namespace Task

/-- What comes in, as a value. -/
def inputValue (t : Task) : Json := .obj t.input

/-- The predecessors that the input comes from. -/
def sources (t : Task) : List String := t.input.keys

end Task

/-- The edges along which an execution goes on. -/
def Graph.takenEdges (g : Graph) (n : Node) (x : Execution) : List Nat :=
  if x.continues n then
    match x.propagation with
    | .all | .iterate _ => (g.outgoing n.id).map (·.1)
    | .suppress => []
    | .branch index conditions => (selectBranch (g.outgoing n.id) index conditions).map (·.1)
  else []

namespace Frame

/-- Settle the edges behind a node that ran. -/
def settleBehind (p : Plane) (f : Frame) (n : Node) (x : Execution) : Frame :=
  let taken := p.graph.takenEdges n x
  f.settleEdges (p.edgesWithin f n.id) fun e => if taken.contains e then .taken else .skipped

/-- The region of an iterator that succeeded waits to run. -/
def postpone (f : Frame) (n : Node) (x : Execution) : Frame :=
  match x.error, x.propagation with
  | none, .iterate payloads =>
    { f with pending := f.pending ++ [{ iterator := n.id, data := x.data, payloads }] }
  | _, _ => f

/-- Take an execution of a member in. -/
def settle (p : Plane) (f : Frame) (n : Node) (x : Execution) : Frame :=
  (((f.addOutput n.id x.data).settleBehind p n x).postpone n x)

end Frame

/-- The world and the progress of the run in it. -/
structure Ongoing (ω : Type) where
  world : World ω
  progress : Progress

namespace Ongoing

variable {ω : Type}

/-- No node may begin any more. -/
def stopped (s : Ongoing ω) : Bool := s.world.isCancelled || s.progress.halted

end Ongoing

namespace World

variable {ω : Type}

/-- Record an output and report it. -/
def reportOutput (h : Host ω) (w : World ω) (id : String) (data : Json) : World ω :=
  h.observe (.output id data) (w.modifyState (·.recordOutput id data))

/-- The state that an execution leaves at its node. -/
def stateAfter (w : World ω) (n : Node) (x : Execution) : NodeState :=
  { result := if x.continues n then some { timestamp := w.instant, payload := x.data } else none
    error := x.error }

/-- Log an execution and report the entry. -/
def reportLog (h : Host ω) (w : World ω) (t : Task) (iteration : Option (String × Nat))
    (x : Execution) (durationMs : Nat) : World ω :=
  let (id, w) := w.freshId
  let entry : LogEntry :=
    { id, timestamp := w.instant, kind := t.node.kind, name := t.node.id
      sourceIds := t.sources, sourceData := t.inputValue, data := x.data, error := x.error
      iteration := iteration.map (·.2), iteratorId := iteration.map (·.1), durationMs }
  h.observe (.log entry) (w.modifyState (·.appendLog entry))

/-- Report an execution; the bindings are the variables after it. -/
def reportExecution (h : Host ω) (w : World ω) (t : Task) (iteration : Option (String × Nat))
    (x : Execution) (durationMs : Nat) (bindings : Entries String) : World ω :=
  let w := if x.continues t.node then w.reportOutput h t.node.id x.data else w
  let w := h.observe (.update t.node.id (w.stateAfter t.node x)) w
  let w := w.reportLog h t iteration x durationMs
  if x.variables.isEmpty then w else h.observe (.environment bindings) w

end World

/-- Settle an execution that took some time. -/
def settle {ω : Type} (h : Host ω) (p : Plane) (f : Frame) (s : Ongoing ω) (t : Task)
    (x : Execution) (durationMs : Nat) : Frame × Ongoing ω :=
  let progress := s.progress.record t.node x
  (f.settle p t.node x,
    { progress
      world := s.world.reportExecution h t f.iteration x durationMs progress.variables })

end Flowline
