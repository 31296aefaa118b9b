import Flowline.Run.Wave
import Mathlib.Data.List.Forall2
import Mathlib.Data.List.Nodup

/-!
# What a wave comes to

A run can only be followed if the rest of the program keeps its hands off it while the slot is held:
it does not give the slot back, does not take back a request to cancel, and does not touch the log
(`Host.LeavesRunsAlone`).  `World.Advance` is what then holds between any two worlds of a run.

* `runWave_comes`: each node of a wave comes to an outcome of its plan, unless the run has been
  cancelled; and then it stays so.
* `advance_runWave`: a wave logs nothing until it is settled.
-/

namespace Flowline

variable {ω : Type}

namespace World

/-- A run leads from one world to another and logs some entries on the way. -/
structure Advance (w : World ω) (logged : List LogEntry) (w' : World ω) : Prop where
  held : w.engine.slotHeld = true → w'.engine.slotHeld = true
  cancelled : w.engine.slotHeld = true → w.isCancelled = true → w'.isCancelled = true
  log : w.engine.slotHeld = true → w'.engine.state.log = w.engine.state.log ++ logged

variable {w w' w'' : World ω} {logged more : List LogEntry}

theorem Advance.refl (w : World ω) : Advance w [] w where
  held := id
  cancelled := fun _ => id
  log := fun _ => (List.append_nil _).symm

theorem Advance.trans (first : Advance w logged w') (second : Advance w' more w'') :
    Advance w (logged ++ more) w'' where
  held slot := second.held (first.held slot)
  cancelled slot request := second.cancelled (first.held slot) (first.cancelled slot request)
  log slot := by rw [second.log (first.held slot), first.log slot, List.append_assoc]

/-- Nothing is logged on a quiet way. -/
theorem Advance.quiet (first : Advance w logged w') (second : Advance w' [] w'') :
    Advance w logged w'' := by
  simpa using first.trans second

/-- A change of the engine that keeps the slot, the request to cancel and the log. -/
theorem advance_modifyEngine (w : World ω) {f : Engine → Engine}
    (slot : (f w.engine).slotHeld = w.engine.slotHeld)
    (request : (f w.engine).cancelRequested = w.engine.cancelRequested)
    (log : (f w.engine).state.log = w.engine.state.log) : Advance w [] (w.modifyEngine f) where
  held := by
    intro held
    exact slot.trans held
  cancelled := by
    intro _ cancelled
    exact request.trans cancelled
  log := fun _ => log.trans (List.append_nil _).symm

/-- A change of the state that keeps the log. -/
theorem advance_modifyState (w : World ω) {f : ExecutionState → ExecutionState}
    (log : (f w.engine.state).log = w.engine.state.log) : Advance w [] (w.modifyState f) :=
  advance_modifyEngine w rfl rfl log

theorem advance_appendLog (w : World ω) (entry : LogEntry) :
    Advance w [entry] (w.modifyState (·.appendLog entry)) where
  held := id
  cancelled := fun _ => id
  log := fun _ => rfl

end World

/-- The rest of the program keeps its hands off a run that holds the slot. -/
structure Host.LeavesRunsAlone (h : Host ω) : Prop where
  observe : ∀ event w, World.Advance w [] (h.observe event w)
  elapse : ∀ time w, World.Advance w [] (h.elapse time w)

theorem Host.LeavesRunsAlone.observed {h : Host ω} (alone : h.LeavesRunsAlone) {w w' : World ω}
    {logged : List LogEntry} (advance : World.Advance w logged w') (event : RunEvent) :
    World.Advance w logged (h.observe event w') :=
  advance.quiet (alone.observe event w')

/-- A plan can end in an outcome. -/
def Plan.CanEndIn (plan : Plan) (outcome : Outcome) : Prop :=
  (∃ reply, outcome = plan.resume reply) ∨ ∃ limit, outcome = .error (.external (.timedOut limit))

theorem Plan.canEndIn_outcomeAfter (plan : Plan) (treatment : Treatment) (timeoutMs : Nat) :
    plan.CanEndIn (plan.outcomeAfter treatment timeoutMs) := by
  unfold outcomeAfter
  split
  · exact Or.inl ⟨treatment.reply, rfl⟩
  · exact Or.inr ⟨timeoutMs, rfl⟩

/-- An execution of the node can be this one. -/
def Node.CanComeTo (n : Node) (x : Execution) : Prop :=
  ∃ ctx store outcome, (n.plan ctx store).1.CanEndIn outcome ∧ x = .ofOutcome outcome

namespace World

variable {h : Host ω} {w : World ω}

/-- A node has come to an execution, or to nothing in a run that was cancelled. -/
def Comes (w : World ω) (n : Node) : Option Ended → Prop
  | some ended => n.CanComeTo ended.execution
  | none => w.isCancelled = true

theorem Comes.advance {w' : World ω} {n : Node} {ended : Option Ended} (comes : w.Comes n ended)
    (slot : w.engine.slotHeld = true) {logged : List LogEntry} (advance : Advance w logged w') :
    w'.Comes n ended := by
  cases ended with
  | none => exact advance.cancelled slot comes
  | some ended => exact comes

/-! ## One node -/

section

variable (alone : h.LeavesRunsAlone)
include alone

theorem advance_begin (t : Task) : Advance w [] (w.begin_ h t) := by
  unfold begin_
  refine alone.observed ?_ _
  refine Advance.quiet ?_ (advance_modifyState _ rfl)
  exact alone.observed (advance_modifyState w rfl) _

theorem advance_end (t : Task) (begun : Nat) (outcome : Outcome) :
    Advance w [] (w.end_ h t begun outcome).2 := by
  unfold end_
  dsimp only
  split
  · exact alone.observed (advance_modifyState w rfl) _
  · exact alone.observed (advance_modifyState w rfl) _

theorem advance_answer (treatment : Treatment) : Advance w [] (w.answer h treatment) := by
  have asked : Advance w [] (if treatment.cancels then
      h.observe (.cancelled w.engine.cancel.1) { w with engine := w.engine.cancel.2 } else w) := by
    have requested : Advance w [] { w with engine := w.engine.cancel.2 } := by
      unfold Engine.cancel
      split
      · exact { held := id, cancelled := fun _ _ => rfl, log := fun _ => (List.append_nil _).symm }
      · exact Advance.refl w
    split
    · exact alone.observed requested _
    · exact Advance.refl w
  unfold answer
  dsimp only
  split
  · exact asked.quiet (alone.observe _ _)
  · exact asked

theorem advance_finish (j : Waiting) : Advance w [] (w.finish h j).2 := by
  unfold finish
  dsimp only
  split
  · exact (advance_answer alone j.treatment).quiet (advance_end alone j.task j.begun _)
  · exact advance_end alone j.task j.begun _

end

theorem comes_end (t : Task) (begun : Nat) {outcome : Outcome} {n : Node}
    (can : n.CanComeTo (.ofOutcome outcome)) :
    (w.end_ h t begun outcome).2.Comes n (w.end_ h t begun outcome).1 := by
  unfold end_
  dsimp only
  split
  · next cancelled => exact cancelled
  · exact can

end World

/-- The job is that of a task, with a plan of its node. -/
def Waiting.IsOf (j : Waiting) (t : Task) : Prop :=
  j.task = t ∧ ∃ ctx store, j.plan = (t.node.plan ctx store).1

namespace World

variable {h : Host ω} {w w' : World ω} {t : Task}

theorem comes_finish {j : Waiting} (job : j.IsOf t) :
    (w.finish h j).2.Comes t.node (w.finish h j).1 := by
  obtain ⟨rfl, ctx, store, plan⟩ := job
  refine comes_end j.task j.begun ⟨ctx, store, _, ?_, rfl⟩
  rw [plan]
  exact Plan.canEndIn_outcomeAfter _ _ _

/-- A node of a wave that was started is over, or waits for its service. -/
def Starts (w : World ω) (t : Task) : Started → Prop
  | .over ended => w.Comes t.node ended
  | .waiting job => job.IsOf t

theorem Starts.advance {started : Started} (starts : w.Starts t started)
    (slot : w.engine.slotHeld = true) {logged : List LogEntry} (advance : Advance w logged w') :
    w'.Starts t started := by
  cases started with
  | «over» ended => exact Comes.advance starts slot advance
  | waiting job => exact starts

theorem advance_start (alone : h.LeavesRunsAlone) (view : WaveView) (t : Task) :
    Advance w [] (w.start h view t).2 := by
  have begun := advance_begin alone (w := w) t
  unfold start
  split
  · exact Advance.refl w
  · dsimp only
    have stored {f : Engine → Engine} {w₁ : World ω} (advance : Advance w [] w₁)
        (slot : (f w₁.engine).slotHeld = w₁.engine.slotHeld)
        (request : (f w₁.engine).cancelRequested = w₁.engine.cancelRequested)
        (log : (f w₁.engine).state.log = w₁.engine.state.log) :
        Advance w [] (w₁.modifyEngine f) :=
      advance.quiet (advance_modifyEngine w₁ slot request log)
    split
    · exact (stored begun rfl rfl rfl).quiet (advance_end alone t _ _)
    · split
      · exact (alone.observed (stored begun rfl rfl rfl) _).quiet (advance_finish alone _)
      · exact alone.observed (stored begun rfl rfl rfl) _

theorem starts_start (view : WaveView) (t : Task) :
    (w.start h view t).2.Starts t (w.start h view t).1 := by
  unfold start
  split
  · next cancelled => exact cancelled
  · dsimp only
    split
    · exact comes_end t _ ⟨_, _, _, Or.inl ⟨_, rfl⟩, rfl⟩
    · split
      · exact comes_finish ⟨rfl, _, _, rfl⟩
      · exact ⟨rfl, _, _, rfl⟩

/-! ## All nodes of a wave -/

theorem advance_startAll (alone : h.LeavesRunsAlone) (view : WaveView) (tasks : List Task) :
    Advance w [] (w.startAll h view tasks).2 := by
  induction tasks generalizing w with
  | nil => exact Advance.refl w
  | cons t rest ih => exact (advance_start alone view t).quiet ih

theorem starts_startAll (alone : h.LeavesRunsAlone) (slot : w.engine.slotHeld = true)
    (view : WaveView) (tasks : List Task) :
    List.Forall₂ (w.startAll h view tasks).2.Starts tasks (w.startAll h view tasks).1 := by
  induction tasks generalizing w with
  | nil => exact .nil
  | cons t rest ih =>
      have held := (advance_start alone view t).held slot
      exact .cons ((starts_start view t).advance held (advance_startAll alone view rest)) (ih held)

theorem advance_finishAll (alone : h.LeavesRunsAlone) (jobs : List (Nat × Waiting)) :
    Advance w [] (w.finishAll h jobs).2 := by
  induction jobs generalizing w with
  | nil => exact Advance.refl w
  | cons job rest ih =>
      exact ((alone.elapse job.2.due w).quiet (advance_finish alone job.2)).quiet ih

/-- Each job that waits is found again among those that ended. -/
theorem lookup_finishAll (alone : h.LeavesRunsAlone) (slot : w.engine.slotHeld = true)
    {jobs : List (Nat × Waiting)} (distinct : (jobs.map (·.1)).Nodup) {number : Nat}
    {job : Waiting} (mem : (number, job) ∈ jobs) (is : job.IsOf t) :
    ∃ ended, (w.finishAll h jobs).1.lookup number = some ended ∧
      (w.finishAll h jobs).2.Comes t.node ended := by
  induction jobs generalizing w with
  | nil => cases mem
  | cons first rest ih =>
      obtain ⟨k, j⟩ := first
      have held := ((alone.elapse j.due w).quiet (advance_finish alone j)).held slot
      obtain ⟨new, distinct⟩ := List.nodup_cons.1 distinct
      unfold finishAll
      dsimp only
      rcases List.mem_cons.1 mem with same | later
      · cases same
        refine ⟨_, by rw [List.lookup_cons_self], ?_⟩
        exact (comes_finish is).advance held (advance_finishAll alone rest)
      · have other : (number == k) = false := by
          refine beq_false_of_ne ?_
          rintro rfl
          exact new (List.mem_map.2 ⟨_, later, rfl⟩)
        rw [List.lookup_cons, other]
        exact ih held distinct later

end World

theorem mem_waitingJobs {started : List Started} {number : Nat} {job : Waiting} :
    (number, job) ∈ waitingJobs started ↔ (Started.waiting job, number) ∈ started.zipIdx := by
  unfold waitingJobs
  rw [List.mem_filterMap]
  constructor
  · rintro ⟨⟨_ | job, number⟩, mem, same⟩
    · cases same
    · cases same
      exact mem
  · exact fun mem => ⟨_, mem, rfl⟩

theorem mem_of_mem_waitingJobs {started : List Started} {j : Nat × Waiting}
    (mem : j ∈ waitingJobs started) : Started.waiting j.2 ∈ started := by
  rw [← List.zipIdx_map_fst 0 started]
  exact List.mem_map_of_mem (mem_waitingJobs.1 mem)

theorem nodup_waitingJobs (started : List Started) : ((waitingJobs started).map (·.1)).Nodup := by
  have all : (started.zipIdx.map (·.2)).Nodup := by
    simp [List.zipIdx_map_snd, List.nodup_range']
  refine all.sublist ?_
  unfold waitingJobs
  induction started.zipIdx with
  | nil => exact .slnil
  | cons entry rest ih =>
      obtain ⟨_ | job, number⟩ := entry
      · exact ih.cons _
      · exact ih.cons_cons _

theorem byDue_perm (jobs : List (Nat × Waiting)) : (byDue jobs).Perm jobs := List.mergeSort_perm _ _

namespace Started

/-- The node is over, with a result that has the first property, or it waits in a way that has the
second one. -/
def Is (P : Option Ended → Prop) (Q : Waiting → Prop) : Started → Prop
  | .over ended => P ended
  | .waiting job => Q job

theorem Is.imp {P P' : Option Ended → Prop} {Q Q' : Waiting → Prop} {started : Started}
    (is : started.Is P Q) (ended : ∀ r, P r → P' r) (waits : ∀ job, Q job → Q' job) :
    started.Is P' Q' := by
  cases started with
  | «over» r => exact ended r is
  | waiting job => exact waits job is

end Started

namespace World

variable {h : Host ω} {w w' : World ω} {t : Task}

/-- What is so of the nodes that are over, and of those that wait once they are over, is so of what a
wave comes to. -/
theorem forall₂_endedInOrder {P : Task → Option Ended → Prop} {Q : Task → Waiting → Prop}
    {tasks : List Task} {started : List Started} {finished : List (Nat × Option Ended)}
    (starts : List.Forall₂ (fun t first => first.Is (P t) (Q t)) tasks started)
    (found : ∀ number job t, (Started.waiting job, number) ∈ started.zipIdx → Q t job →
      ∃ ended, finished.lookup number = some ended ∧ P t ended) :
    List.Forall₂ P tasks (endedInOrder started finished) := by
  unfold endedInOrder
  generalize 0 = start at found ⊢
  induction starts generalizing start with
  | nil => exact .nil
  | @cons t first tasks started head _ ih =>
      rw [List.zipIdx_cons] at found ⊢
      refine .cons ?_ (ih (start + 1) fun number job t mem is =>
        found number job t (List.mem_cons_of_mem _ mem) is)
      cases first with
      | «over» ended => exact head
      | waiting job =>
          obtain ⟨ended, lookup, holds⟩ := found start job t List.mem_cons_self head
          show P t (finished.lookup start).join
          rw [lookup]
          exact holds

end World

/-- A wave logs nothing until it is settled. -/
theorem advance_runWave {h : Host ω} (alone : h.LeavesRunsAlone) (view : WaveView) (w : World ω)
    (tasks : List Task) : World.Advance w [] (runWave h view w tasks).2 :=
  (World.advance_startAll alone view tasks).quiet (World.advance_finishAll alone _)

/-- Each node of a wave comes to an outcome of its plan, unless the run has been cancelled. -/
theorem runWave_comes {h : Host ω} (alone : h.LeavesRunsAlone) {w : World ω}
    (slot : w.engine.slotHeld = true) (view : WaveView) (tasks : List Task) :
    List.Forall₂ (fun t => (runWave h view w tasks).2.Comes t.node) tasks
      (runWave h view w tasks).1 := by
  have held := (World.advance_startAll alone view tasks).held slot
  have starts := World.starts_startAll alone slot view tasks
  let jobs := byDue (waitingJobs (w.startAll h view tasks).1)
  refine World.forall₂_endedInOrder (Q := fun t job => job.IsOf t)
    (starts.imp fun t started starts => ?_) fun number job t mem is => ?_
  · have later := starts.advance held (World.advance_finishAll alone jobs)
    cases started with
    | «over» ended => exact later
    | waiting job => exact later
  · have distinct : (jobs.map (·.1)).Nodup :=
      ((byDue_perm _).map (·.1)).nodup_iff.2 (nodup_waitingJobs _)
    exact World.lookup_finishAll alone held distinct
      ((byDue_perm _).mem_iff.2 (mem_waitingJobs.2 mem)) is

end Flowline
