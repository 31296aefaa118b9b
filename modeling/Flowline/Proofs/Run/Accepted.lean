import Flowline.Proofs.Graph.Cycle
import Flowline.Proofs.Run.Settle

/-!
# A run that is accepted

A workflow whose graph has no cycle runs in the slot that is held for it.  The run begins in
`World.running`, with an empty log and without a request to cancel, and its last report is its
final status.

* `executeReserved_eq`: what the run comes to.
* `acyclic_of_executeReserved`: no other workflow is accepted.
-/

namespace Flowline

variable {ω : Type} {h : Host ω} {request : RunRequest} {w w' : World ω}

/-- The world in which an accepted run begins. -/
def World.running (h : Host ω) (w : World ω) : World ω := w.freshId.2.beginRun h w.freshId.1

/-- The status in which a run ends. -/
def Ongoing.finalStatus (s : Ongoing ω) : RunStatus := s.progress.finalStatus s.world.isCancelled

/-- What an accepted run comes to. -/
theorem executeReserved_eq (passes : (Graph.ofWorkflow request.workflow).cycleNode? = none) :
    executeReserved h request w =
      (let s := runGraph h request (Graph.ofWorkflow request.workflow) (w.running h)
       let ended := s.world.changeStatus h s.finalStatus
       (.ok ⟨w.freshId.1, s.finalStatus, s.progress.results, w.freshId.2.instant, ended.instant⟩,
         ended.modifyEngine (·.release))) := by
  unfold executeReserved
  dsimp only
  rw [passes]
  rfl

theorem passes_of_executeReserved {summary : RunSummary}
    (ran : executeReserved h request w = (.ok summary, w')) :
    (Graph.ofWorkflow request.workflow).cycleNode? = none := by
  cases named : (Graph.ofWorkflow request.workflow).cycleNode? with
  | none => rfl
  | some id =>
      unfold executeReserved at ran
      dsimp only at ran
      rw [named] at ran
      cases ran

/-- Only workflows without a cycle run. -/
theorem acyclic_of_executeReserved {summary : RunSummary}
    (ran : executeReserved h request w = (.ok summary, w')) :
    (Graph.ofWorkflow request.workflow).Acyclic :=
  Graph.acyclic_of_cycleNode?_eq_none (Graph.wellFormed_ofWorkflow _)
    (passes_of_executeReserved ran)

section

variable (alone : h.LeavesRunsAlone)
include alone

/-- A run begins in the slot that was held, -/
theorem held_running (held : w.engine.slotHeld = true) :
    (w.running h).engine.slotHeld = true :=
  (alone.observe _ _).held held

/-- and with an empty log. -/
theorem log_running (held : w.engine.slotHeld = true) : (w.running h).engine.state.log = [] :=
  (alone.observe _ _).log held

theorem advance_changeStatus (w : World ω) (status : RunStatus) :
    World.Advance w [] (w.changeStatus h status) := by
  refine alone.observed (World.advance_modifyState w ?_) _
  unfold ExecutionState.setStatus
  split <;> rfl

end

end Flowline
