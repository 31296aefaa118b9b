import Flowline.Document.Edit
import Flowline.Uuid

/-!
# The document

A `Document` is a workflow that is being edited, with the edits that can be undone and redone.
Only so many edits are remembered. What a run leaves at a node is written past the history.
-/

namespace Flowline

/-- The edits that can be undone and redone, the latest first, and how many are remembered. -/
structure EditHistory where
  undone : List AppliedEdit := []
  done : List AppliedEdit := []
  limit : Nat
  limit_pos : 0 < limit

namespace EditHistory

/-- The history of no edits; at least one edit is remembered. -/
def empty (limit : Nat) : EditHistory := { limit := max limit 1, limit_pos := by omega }

/-- Remember an edit. What was undone can no longer be redone. -/
def record (h : EditHistory) (edit : AppliedEdit) : EditHistory :=
  { h with undone := [], done := (edit :: h.done).take h.limit }

/-- Forget all edits. -/
def clear (h : EditHistory) : EditHistory := { h with undone := [], done := [] }

end EditHistory

/-- A workflow with its history. `serial` numbers the ids that the document makes. -/
structure Document where
  workflow : Workflow
  history : EditHistory
  serial : Nat := 0

namespace Document

/-- The document of a workflow. -/
def ofWorkflow (workflow : Workflow) (limit : Nat) : Document :=
  { workflow, history := .empty limit }

/-- Put another workflow in place of this one, and forget the history. -/
def replace (d : Document) (workflow : Workflow) : Document :=
  { d with workflow, history := d.history.clear }

/-- Make a change. -/
def apply (d : Document) (command : EditCommand) : Except EditError (AppliedEdit × Document) := do
  let (edit, workflow) ← command.apply (Uuid.ofSerial d.serial).text d.workflow
  return (edit, { workflow, history := d.history.record edit, serial := d.serial + 1 })

/-- There is an edit to undo. -/
def canUndo (d : Document) : Bool := !d.history.done.isEmpty

/-- There is an edit to redo. -/
def canRedo (d : Document) : Bool := !d.history.undone.isEmpty

/-- Undo the latest edit, if there is one. -/
def undo? (d : Document) : Option Document :=
  match d.history.done with
  | [] => none
  | edit :: done => some { d with
      workflow := edit.undo d.workflow
      history := { d.history with done, undone := edit :: d.history.undone } }

/-- Redo the edit that was undone last, if there is one. -/
def redo? (d : Document) : Option Document :=
  match d.history.undone with
  | [] => none
  | edit :: undone => some { d with
      workflow := edit.redo d.workflow
      history := { d.history with undone, done := edit :: d.history.done } }

/-- Write what a run has left at a node, if the node is still there. -/
def setNodeState? (d : Document) (id : String) (state : NodeState) : Option Document :=
  if (d.workflow.node? id).isSome then
    some { d with workflow := d.workflow.modifyNode id ({ · with state }) }
  else none

end Document

end Flowline
