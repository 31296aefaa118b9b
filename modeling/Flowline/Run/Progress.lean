import Flowline.Node.Context
import Flowline.Run.State

/-!
# The progress of a run

An `Execution` is what one execution of a node came to, with an error or without one. The
`Progress` of a run has the variables, the result of each node so far, and whether the run has
failed or is to stop. A `RunSummary` reports the end.
-/

namespace Flowline

/-- What a node came to in a run. -/
inductive NodeStatus where
  | completed
  | failed
  | skipped
deriving DecidableEq

/-- The status by name. -/
def NodeStatus.encode : NodeStatus → Json :=
  .ofName [("completed", completed), ("failed", failed), ("skipped", skipped)]

/-- The result of a node in a run: the data of its last execution, the error of the last one that
failed, and how many there were. -/
structure NodeResult where
  status : NodeStatus := .skipped
  data : Option Json := none
  error : Option String := none
  executions : Nat := 0

/-- What one execution came to. -/
structure Execution where
  data : Json
  error : Option String
  propagation : Propagation
  /-- The variables to set. -/
  «variables» : List (String × String)
  /-- The run is to stop. -/
  halt : Bool

namespace Execution

/-- An outcome as an execution; a failure without data has its message as data. -/
def ofOutcome : Outcome → Execution
  | .ok output =>
    { data := output.data, error := output.failure.map (·.message),
      propagation := output.propagation, «variables» := output.variables, halt := output.halt }
  | .error e =>
    { data := .obj [("error", .str e.message)], error := some e.message, propagation := .all,
      «variables» := [], halt := false }

/-- The execution failed. -/
def failed (x : Execution) : Bool := x.error.isSome

/-- What lies behind the node goes on. -/
def continues (x : Execution) (n : Node) : Bool := !x.failed || n.continueOnFailure

end Execution

namespace NodeResult

/-- Count an execution in. A failure stays, and a completion replaces a skip. -/
def record (r : NodeResult) (x : Execution) : NodeResult :=
  { status := if x.failed then .failed else if r.status = .skipped then .completed else r.status
    data := some x.data
    error := x.error.orElse fun _ => r.error
    executions := r.executions + 1 }

def encode (r : NodeResult) : Json :=
  .obj <| [("status", r.status.encode)] ++ Json.optional "data" id r.data ++
    Json.optional "error" .str r.error ++ [("executions", .ofNat r.executions)]

end NodeResult

/-- How far a run has come. -/
structure Progress where
  /-- The variables. -/
  «variables» : Entries String
  results : Entries NodeResult := []
  /-- A node failed and what lies behind it does not go on. -/
  failed : Bool := false
  /-- An execution asked the run to stop. -/
  halted : Bool := false

namespace Progress

/-- The result of a node. -/
def result (p : Progress) (id : String) : NodeResult := (p.results.get? id).getD {}

/-- Count an execution of a node in. -/
def record (p : Progress) (n : Node) (x : Execution) : Progress :=
  { «variables» := p.variables.putAll x.variables
    results := p.results.put n.id ((p.result n.id).record x)
    failed := p.failed || !x.continues n
    halted := p.halted || x.halt }

/-- Nodes are skipped, which matters for those without a result. -/
def skip (p : Progress) (ids : List String) : Progress :=
  let add (results : Entries NodeResult) (id : String) : Entries NodeResult :=
    if results.has id then results else results.put id {}
  { p with results := ids.foldl add p.results }

/-- The data of a node that has a result changes. -/
def amend (p : Progress) (id : String) (data : Json) : Progress :=
  match p.results.get? id with
  | some r => { p with results := p.results.put id { r with data := some data } }
  | none => p

/-- The status in which the run ends. -/
def finalStatus (p : Progress) (cancelled : Bool) : RunStatus :=
  if cancelled then .cancelled else if p.halted || p.failed then .failed else .completed

end Progress

/-- The report at the end of a run. -/
structure RunSummary where
  runId : Uuid
  status : RunStatus
  results : Entries NodeResult
  startedAt : Instant
  finishedAt : Instant

namespace RunSummary

/-- The run was not cancelled, not stopped and did not fail. -/
def success (s : RunSummary) : Bool := s.status = .completed

def encode (s : RunSummary) : Json := .obj [
  ("runId", .str s.runId.text),
  ("status", s.status.encode),
  ("success", .bool s.success),
  ("nodeResults", .obj (s.results.map fun e => (e.1, e.2.encode))),
  ("startedAt", .str s.startedAt.text),
  ("finishedAt", .str s.finishedAt.text)]

end RunSummary

end Flowline
