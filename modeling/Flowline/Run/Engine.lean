import Flowline.Run.State
import Flowline.Store

/-!
# The engine

An `Engine` has the state of the current or last run, what collectors and counters keep, the
request to cancel, and a slot that only one run can hold at a time.
-/

namespace Flowline

/-- Why a run does not begin. -/
inductive EngineError where
  /-- The graph has a cycle through the node. -/
  | graphCycle (nodeId : String)
  | runInProgress
deriving DecidableEq

/-- The error in words. -/
def EngineError.message : EngineError → String
  | graphCycle nodeId => "workflow graph contains a cycle through node '" ++ nodeId ++ "'"
  | runInProgress => "a workflow run is already in progress"

/-- The engine. -/
structure Engine where
  /-- The time limit of nodes that set none, in milliseconds. -/
  defaultTimeoutMs : Nat
  state : ExecutionState := {}
  store : NodeStore := {}
  cancelRequested : Bool := false
  slotHeld : Bool := false

namespace Engine

/-- Take the slot. -/
def reserve (e : Engine) : Except EngineError Engine :=
  if e.slotHeld then .error .runInProgress else .ok { e with slotHeld := true }

/-- Give the slot back. -/
def release (e : Engine) : Engine := { e with slotHeld := false }

/-- Ask for an end of the run, if there is one or not. -/
def requestCancel (e : Engine) : Engine := { e with cancelRequested := true }

/-- Ask the run that holds the slot to stop; nothing happens if none does. -/
def cancel (e : Engine) : Bool × Engine :=
  if e.slotHeld then (true, e.requestCancel) else (false, e)

/-- Forget what is kept for a node and what went into and out of it. Tells whether a collector or
counter had kept something. -/
def resetNode (e : Engine) (id : String) : Bool × Engine :=
  (e.store.has id, { e with state := e.state.clearNode id, store := e.store.reset id })

/-- Forget what is kept for all nodes. -/
def resetAll (e : Engine) : Engine := { e with store := .empty }

end Engine

end Flowline
