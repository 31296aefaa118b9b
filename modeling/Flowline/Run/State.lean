import Flowline.Uuid
import Flowline.Workflow.Codec

/-!
# The state of a run

What can be seen of the run that is going on or was the last one: its status, its log, the nodes
that execute, and the last input and output of each node, which outlive the run.
-/

namespace Flowline

/-- The status of a run. -/
inductive RunStatus where
  | idle
  | running
  | completed
  | failed
  | cancelled
deriving DecidableEq

namespace RunStatus

/-- The statuses by name. -/
def byName : List (String × RunStatus) :=
  [("idle", idle), ("running", running), ("completed", completed), ("failed", failed),
    ("cancelled", cancelled)]

/-- The run is over. -/
def isTerminal : RunStatus → Bool
  | completed | failed | cancelled => true
  | idle | running => false

def decode : Decoder RunStatus := .variant byName

def encode (s : RunStatus) : Json := .ofName byName s

end RunStatus

/-- One execution of a node. -/
structure LogEntry where
  id : Uuid
  timestamp : Instant
  kind : NodeKind
  /-- The id of the node. -/
  name : String
  /-- The predecessors whose output came in. -/
  sourceIds : List String
  /-- What came in, by predecessor. -/
  sourceData : Json
  data : Json
  error : Option String := none
  /-- The number of the iteration that the execution was part of. -/
  iteration : Option Nat := none
  /-- The iterator whose iteration that was. -/
  iteratorId : Option String := none
  durationMs : Nat

/-- An identifier. -/
def Uuid.decode : Decoder Uuid := .scalar fun
  | .str s => (Uuid.read? s).elim (.error .badIdentifier) .ok
  | _ => .error .invalidType

namespace LogEntry

open Decoder Fields

def decode : Decoder LogEntry := record <|
  LogEntry.mk <$> required "id" Uuid.decode <*> required "timestamp" instant <*>
    required "type" NodeKind.decode <*> required "name" string <*>
    required "sourceIds" (list string) <*> required "sourceData" value <*>
    required "data" value <*> Fields.optional "error" string <*>
    Fields.optional "iteration" word <*> Fields.optional "iteratorId" string <*>
    required "durationMs" word

def encode (e : LogEntry) : Json :=
  .obj <| [("id", .str e.id.text), ("timestamp", .str e.timestamp.text), ("type", e.kind.encode),
    ("name", .str e.name), ("sourceIds", .ofList .str e.sourceIds), ("sourceData", e.sourceData),
    ("data", e.data)] ++ Json.optional "error" .str e.error ++
    Json.optional "iteration" .ofNat e.iteration ++
    Json.optional "iteratorId" .str e.iteratorId ++ [("durationMs", .ofNat e.durationMs)]

end LogEntry

/-- What can be seen of a run. -/
structure ExecutionState where
  runId : Option Uuid := none
  status : RunStatus := .idle
  log : List LogEntry := []
  /-- The nodes that execute, in ascending order. -/
  executing : List String := []
  lastInputs : Entries Json := []
  lastOutputs : Entries Json := []
  startedAt : Option Instant := none
  finishedAt : Option Instant := none

namespace ExecutionState

/-- Insert a text in an ascending list, unless it is there. -/
def insertAscending (s : String) : List String → List String
  | [] => [s]
  | t :: rest =>
    if s = t then t :: rest else if s < t then s :: t :: rest else t :: insertAscending s rest

/-- A new run begins. What came into and out of the nodes last is kept. -/
def beginRun (s : ExecutionState) (id : Uuid) (now : Instant) : ExecutionState :=
  { s with runId := some id, status := .running, log := [], executing := [],
           startedAt := some now, finishedAt := none }

/-- The status changes; with a terminal status the run is over. -/
def setStatus (s : ExecutionState) (status : RunStatus) (now : Instant) : ExecutionState :=
  if status.isTerminal then { s with status, finishedAt := some now, executing := [] }
  else { s with status }

/-- A node begins to execute. -/
def mark (s : ExecutionState) (id : String) : ExecutionState :=
  { s with executing := insertAscending id s.executing }

/-- A node executes no more. -/
def unmark (s : ExecutionState) (id : String) : ExecutionState :=
  { s with executing := s.executing.filter (· != id) }

/-- An execution is logged. -/
def appendLog (s : ExecutionState) (e : LogEntry) : ExecutionState := { s with log := s.log ++ [e] }

/-- Something came into a node. -/
def recordInput (s : ExecutionState) (id : String) (v : Json) : ExecutionState :=
  { s with lastInputs := s.lastInputs.put id v }

/-- Something came out of a node. -/
def recordOutput (s : ExecutionState) (id : String) (v : Json) : ExecutionState :=
  { s with lastOutputs := s.lastOutputs.put id v }

/-- Forget what came into and out of a node. -/
def clearNode (s : ExecutionState) (id : String) : ExecutionState :=
  { s with lastInputs := s.lastInputs.remove id, lastOutputs := s.lastOutputs.remove id }

def encode (s : ExecutionState) : Json := .obj [
  ("runId", (s.runId.map fun id => Json.str id.text).getD .null),
  ("status", s.status.encode),
  ("executing", .ofList .str s.executing),
  ("log", .ofList LogEntry.encode s.log),
  ("lastInputs", .obj s.lastInputs),
  ("lastOutputs", .obj s.lastOutputs),
  ("startedAt", (s.startedAt.map fun t => Json.str t.text).getD .null),
  ("finishedAt", (s.finishedAt.map fun t => Json.str t.text).getD .null)]

end ExecutionState

end Flowline
