import Flowline.Proofs.Api.Host
import Flowline.Proofs.Run.Alone

/-!
# The order in which the nodes of a wave are executed does not matter

A wave may execute its nodes one after the other in any order (`waveInTurn`).  What they come to is
settled in the order of the wave, whatever the order of execution was.

* `Ongoing.alike_settleRan`: to settle the same executions in engines that have the same leads to
  engines that have the same.
* `wave_independent`: in any order each node comes to the same, the same is kept for each node, and
  the wave leads to the same frame, the same progress of the run and the same engine, up to ids,
  times and durations of what is logged; and so it does if the nodes wait for their services side by
  side.
-/

namespace Flowline

open Api

variable {ω : Type}

/-! ## Settling -/

/-- What counts when an execution is settled: not how long it took. -/
def cameTo (r : Task × Ended) : Task × Execution := (r.1, r.2.execution)

/-- The entry of an execution, without id, time and duration. -/
def LogEntry.tells (iteration : Option (String × Nat)) (r : Task × Execution) : LogEntry where
  id := .ofSerial 0
  timestamp := .ofMillis 0
  kind := r.1.node.kind
  name := r.1.node.id
  sourceIds := r.1.sources
  sourceData := r.1.inputValue
  data := r.2.data
  error := r.2.error
  iteration := iteration.map (·.2)
  iteratorId := iteration.map (·.1)
  durationMs := 0

namespace Engine

/-- The output of an execution is recorded, if what lies behind its node goes on. -/
def recorded (e : Engine) (r : Task × Execution) : Engine :=
  if r.2.continues r.1.node then
    { e with state := e.state.recordOutput r.1.node.id r.2.data }
  else e

/-- An entry is logged. -/
def logged (e : Engine) (entry : LogEntry) : Engine :=
  { e with state := e.state.appendLog entry }

theorem part_recorded (e : Engine) (r : Task × Execution) (id : String) :
    (e.recorded r).part id = e.part id := by
  unfold recorded
  split
  · rfl
  · rfl

theorem rest_recorded (e : Engine) (r : Task × Execution) :
    (e.recorded r).rest = e.rest.recorded r := by
  unfold recorded
  split
  · rfl
  · rfl

theorem rest_logged (e : Engine) (entry : LogEntry) :
    (e.logged entry).rest = e.rest.logged entry.untimed := by
  unfold rest logged ExecutionState.appendLog
  dsimp only
  rw [List.map_append]
  rfl

end Engine

theorem Frame.settleRan_eq (p : Plane) (f : Frame) (ran : List (Task × Ended)) :
    f.settleRan p ran = (ran.map cameTo).foldl (fun f r => f.settle p r.1.node r.2) f := by
  rw [List.foldl_map]
  rfl

theorem Progress.recordRan_eq (q : Progress) (ran : List (Task × Ended)) :
    q.recordRan ran = (ran.map cameTo).foldl (fun q r => q.record r.1.node r.2) q := by
  rw [List.foldl_map]
  rfl

section

variable {h : Host ω} (passive : h.Passive) (iteration : Option (String × Nat))
include passive

/-- Reporting an execution records its output and logs it. -/
theorem World.engine_reportExecution (w : World ω) (t : Task) (x : Execution) (durationMs : Nat)
    (bindings : Entries String) :
    ∃ entry : LogEntry, entry.untimed = .tells iteration (t, x) ∧
      (w.reportExecution h t iteration x durationMs bindings).engine =
        (w.engine.recorded (t, x)).logged entry := by
  have recorded : (if x.continues t.node then w.reportOutput h t.node.id x.data else w).engine =
      w.engine.recorded (t, x) := by
    unfold Engine.recorded
    dsimp only
    split
    · exact passive.observe _ _
    · rfl
  unfold reportExecution
  dsimp only
  generalize (if x.continues t.node then w.reportOutput h t.node.id x.data else w) = w₁ at recorded
  have updated := passive.observe (.update t.node.id (w₁.stateAfter t.node x)) w₁
  generalize h.observe (.update t.node.id (w₁.stateAfter t.node x)) w₁ = w₂ at updated
  have logged : ∃ entry : LogEntry, entry.untimed = .tells iteration (t, x) ∧
      (w₂.reportLog h t iteration x durationMs).engine = w₂.engine.logged entry :=
    ⟨_, rfl, passive.observe _ _⟩
  obtain ⟨entry, tells, logged⟩ := logged
  rw [updated, recorded] at logged
  refine ⟨entry, tells, ?_⟩
  split
  · exact logged
  · exact (passive.observe _ _).trans logged

theorem Ongoing.alike_settle {s s' : Ongoing ω} (t : Task) {ended ended' : Ended}
    (alike : s.world.engine.Alike s'.world.engine) (same : ended.execution = ended'.execution) :
    (s.settle h iteration t ended).world.engine.Alike
      (s'.settle h iteration t ended').world.engine := by
  obtain ⟨entry, tells, engine⟩ := World.engine_reportExecution passive iteration s.world t
    ended.execution ended.durationMs (s.progress.record t.node ended.execution).variables
  obtain ⟨entry', tells', engine'⟩ := World.engine_reportExecution passive iteration s'.world t
    ended'.execution ended'.durationMs (s'.progress.record t.node ended'.execution).variables
  unfold settle
  dsimp only
  rw [engine, engine', ← same]
  constructor
  · intro id
    exact (Engine.part_recorded _ _ id).trans
      ((alike.part id).trans (Engine.part_recorded _ _ id).symm)
  · rw [Engine.rest_logged, Engine.rest_logged, tells, tells', Engine.rest_recorded,
      Engine.rest_recorded, alike.rest, same]

/-- To settle the same executions in engines that have the same leads to engines that have the
same. -/
theorem Ongoing.alike_settleRan {s s' : Ongoing ω} {ran ran' : List (Task × Ended)}
    (alike : s.world.engine.Alike s'.world.engine) (same : ran.map cameTo = ran'.map cameTo) :
    (s.settleRan h iteration ran).world.engine.Alike
      (s'.settleRan h iteration ran').world.engine := by
  induction ran generalizing s s' ran' with
  | nil =>
      cases ran' with
      | nil => exact alike
      | cons r' rest' => cases same
  | cons r rest ih =>
      cases ran' with
      | nil => cases same
      | cons r' rest' =>
          obtain ⟨first, rest_same⟩ := List.cons.inj same
          obtain ⟨t, ended⟩ := r
          obtain ⟨t', ended'⟩ := r'
          obtain ⟨rfl, came⟩ := Prod.mk.inj first
          have next : (s.settle h iteration t ended).world.engine.Alike
              (s'.settle h iteration t ended').world.engine :=
            alike_settle passive iteration t alike came
          have rest_alike := ih next rest_same
          exact rest_alike

end

/-! ## Waves in any order -/

/-- What a task came to that was executed in an order with others. -/
def resultOf : List Task → List (Option Ended) → Task → Option Ended
  | u :: order, r :: results, t =>
    if u.node.id = t.node.id then r else resultOf order results t
  | _, _, _ => none

section

variable (h : Host ω) (run : RunPlan) (f : Frame) (s : Ongoing ω) (ids : List String)

/-- What tasks came to that came to something. -/
def ranOf (tasks : List Task) (results : List (Option Ended)) : List (Task × Ended) :=
  (tasks.zip results).filterMap fun r => r.2.map fun ended => (r.1, ended)

/-- Settle what the tasks of a wave came to, in the order of the wave. -/
def settleWave (results : List (Option Ended)) (world : World ω) : Frame × Ongoing ω :=
  let ran := ranOf (f.tasks run.plane ids) results
  ((f.dispatch ids).settleRan run.plane ran, Ongoing.settleRan h f.iteration { s with world } ran)

/-- A wave whose nodes are executed one after the other, in an order of their own. -/
def waveInTurn (order : List Task) : Frame × Ongoing ω :=
  let (results, world) := s.world.executeInTurn h (waveView run f s) order
  settleWave h run f s ids ((f.tasks run.plane ids).map (resultOf order results)) world

/-- The order in which the nodes of a wave are executed does not matter. -/
structure OrderIrrelevant (order : List Task) : Prop where
  /-- Each node comes to the same as if they are executed in the order of the wave, -/
  results : ∀ t ∈ f.tasks run.plane ids,
    (resultOf order (s.world.executeInTurn h (waveView run f s) order).1 t).map Ended.execution =
      (resultOf (f.tasks run.plane ids) (s.world.executeInTurn h (waveView run f s)
        (f.tasks run.plane ids)).1 t).map Ended.execution
  /-- to something, unless the run has been cancelled, -/
  come : s.world.isCancelled = false → ∀ t ∈ f.tasks run.plane ids,
    (resultOf order (s.world.executeInTurn h (waveView run f s) order).1 t).isSome
  /-- and the same is kept for each node. -/
  kept : ∀ id, (s.world.executeInTurn h (waveView run f s) order).2.engine.store.get? id =
    (s.world.executeInTurn h (waveView run f s) (f.tasks run.plane ids)).2.engine.store.get? id
  /-- So the wave leads to the same frame, -/
  frame : (waveInTurn h run f s ids order).1 =
    (waveInTurn h run f s ids (f.tasks run.plane ids)).1
  /-- the same variables and results, -/
  progress : (waveInTurn h run f s ids order).2.progress =
    (waveInTurn h run f s ids (f.tasks run.plane ids)).2.progress
  /-- the same engine, up to ids, times and durations of what is logged, -/
  engine : (waveInTurn h run f s ids order).2.world.engine.Alike
    (waveInTurn h run f s ids (f.tasks run.plane ids)).2.world.engine
  /-- and all that is so of the wave whose nodes wait for their services side by side. -/
  sideBySide : (wave h run f s ids).1 = (waveInTurn h run f s ids order).1 ∧
    (wave h run f s ids).2.progress = (waveInTurn h run f s ids order).2.progress ∧
    (wave h run f s ids).2.world.engine.Alike (waveInTurn h run f s ids order).2.world.engine

end

theorem wave_eq_settleWave (h : Host ω) (run : RunPlan) (f : Frame) (s : Ongoing ω)
    (ids : List String) :
    wave h run f s ids =
      settleWave h run f s ids
        (runWave h (waveView run f s) s.world (f.tasks run.plane ids)).1
        (runWave h (waveView run f s) s.world (f.tasks run.plane ids)).2 :=
  wave_eq h run f s ids

/-! ### Results -/

section

variable {R : Task → Option Ended → Prop} {order tasks : List Task}
  {results results' : List (Option Ended)}

theorem resultOf_of_forall₂ (all : List.Forall₂ R order results)
    (distinct : (order.map (·.node.id)).Nodup) {t : Task} (mem : t ∈ order) :
    R t (resultOf order results t) := by
  induction all with
  | nil => cases mem
  | @cons u r _ _ first _ ih =>
      obtain ⟨new, distinct⟩ := List.nodup_cons.1 distinct
      unfold resultOf
      rcases List.mem_cons.1 mem with rfl | later
      · rw [if_pos rfl]
        exact first
      · rw [if_neg fun same => new (List.mem_map.2 ⟨t, later, same.symm⟩)]
        exact ih distinct later

/-- What is settled of results that are what tasks come to. -/
theorem map_ranOf {x? : Task → Option Execution}
    (all : List.Forall₂ (fun t r => r.map Ended.execution = x? t) tasks results) :
    (ranOf tasks results).map cameTo = tasks.filterMap fun t => (x? t).map fun x => (t, x) := by
  unfold ranOf
  induction all with
  | nil => rfl
  | @cons t r tasks results first _ ih =>
      rw [List.zip_cons_cons, List.filterMap_cons, List.filterMap_cons, ← first]
      cases r with
      | none => exact ih
      | some ended => exact congrArg (_ :: ·) ih

end

/-- The tasks of distinct members are those of distinct nodes. -/
theorem Frame.nodup_tasks (p : Plane) (f : Frame) {ids : List String} (distinct : ids.Nodup) :
    ((f.tasks p ids).map (·.node.id)).Nodup := by
  refine distinct.sublist ?_
  clear distinct
  unfold tasks
  induction ids with
  | nil => exact .slnil
  | cons id rest ih =>
      rw [List.filterMap_cons]
      cases found : p.graph.node? id with
      | none => exact ih.cons _
      | some n =>
          have hit : (n.id == id) = true := by
            unfold Graph.node? at found
            exact List.find?_some (p := fun n : Node => n.id == id) found
          have same : n.id = id := beq_iff_eq.1 hit
          rw [Option.map_some, List.map_cons, same]
          exact ih.cons_cons _

/-! ### Orders -/

section

variable {h : Host ω} {view : WaveView} {w w' w'' : World ω} {order tasks : List Task}
  {results results' : List (Option Ended)}

/-- Tasks that come to what each comes to alone may be listed in another order. -/
theorem EachAlone.reorder (alone : EachAlone h view w order results w')
    (perm : order.Perm tasks) (distinct : (tasks.map (·.node.id)).Nodup) :
    EachAlone h view w tasks (tasks.map (resultOf order results)) w' where
  results := by
    have distinct' : (order.map (·.node.id)).Nodup := (perm.map _).nodup_iff.2 distinct
    refine List.forall₂_map_right_iff.2 (List.forall₂_same.2 fun t mem => ?_)
    exact resultOf_of_forall₂ alone.results distinct' (perm.mem_iff.2 mem)
  own t mem := alone.own t (perm.mem_iff.2 mem)
  others id missing := alone.others id fun mem => missing ((perm.map _).mem_iff.1 mem)
  rest := alone.rest

/-- They leave engines that have the same. -/
theorem EachAlone.alike (alone : EachAlone h view w tasks results w')
    (alone' : EachAlone h view w tasks results' w'') : w'.engine.Alike w''.engine where
  part id := by
    by_cases own : id ∈ tasks.map (·.node.id)
    · obtain ⟨t, mem, rfl⟩ := List.mem_map.1 own
      rw [alone.own t mem, alone'.own t mem]
    · rw [alone.others id own, alone'.others id own]
  rest := alone.rest.trans alone'.rest.symm

end

section

variable {h : Host ω} {run : RunPlan} {f : Frame} {s : Ongoing ω} {ids : List String}
  {results results' : List (Option Ended)} {world world' : World ω}

/-- To settle what the tasks of a wave come to alone leads to the same. -/
theorem settleWave_agree (passive : h.Passive)
    (alone : EachAlone h (waveView run f s) s.world (f.tasks run.plane ids) results world)
    (alone' : EachAlone h (waveView run f s) s.world (f.tasks run.plane ids) results' world') :
    (settleWave h run f s ids results world).1 = (settleWave h run f s ids results' world').1 ∧
    (settleWave h run f s ids results world).2.progress =
      (settleWave h run f s ids results' world').2.progress ∧
    (settleWave h run f s ids results world).2.world.engine.Alike
      (settleWave h run f s ids results' world').2.world.engine := by
  have same : (ranOf (f.tasks run.plane ids) results).map cameTo =
      (ranOf (f.tasks run.plane ids) results').map cameTo :=
    (map_ranOf alone.results).trans (map_ranOf alone'.results).symm
  refine ⟨?_, ?_, ?_⟩
  · unfold settleWave
    dsimp only
    rw [Frame.settleRan_eq, Frame.settleRan_eq, same]
  · unfold settleWave
    dsimp only
    rw [Ongoing.progress_settleRan, Ongoing.progress_settleRan, Progress.recordRan_eq,
      Progress.recordRan_eq, same]
  · exact Ongoing.alike_settleRan passive f.iteration (alone.alike alone') same

/-- **The nodes of a wave are independent.**  Whatever the frame and the run are and whichever nodes
the wave has: if its nodes are executed one after the other, and nobody else touches the engine
meanwhile, the order does not matter, neither for what a node comes to and what is kept for it nor
for what the wave leads to. -/
theorem wave_independent (passive : h.Passive) (distinct : ids.Nodup) {order : List Task}
    (perm : order.Perm (f.tasks run.plane ids)) : OrderIrrelevant h run f s ids order := by
  have distinct_tasks := f.nodup_tasks run.plane distinct
  have distinct_order : (order.map (·.node.id)).Nodup := (perm.map _).nodup_iff.2 distinct_tasks
  have permuted := (eachAlone_executeInTurn passive (waveView run f s) s.world
    distinct_order).reorder perm distinct_tasks
  have inTurn := (eachAlone_executeInTurn passive (waveView run f s) s.world
    distinct_tasks).reorder (.refl _) distinct_tasks
  have atOnce := eachAlone_runWave passive (waveView run f s) s.world distinct_tasks
  obtain ⟨frame, progress, engine⟩ := settleWave_agree passive permuted inTurn
  obtain ⟨frame', progress', engine'⟩ := settleWave_agree passive atOnce permuted
  have alone (t : Task) (mem : t ∈ f.tasks run.plane ids) :=
    List.forall₂_same.1 (List.forall₂_map_right_iff.1 permuted.results) t mem
  refine ⟨fun t mem => ?_, fun goes_on t mem => ?_, fun id => ?_, frame, progress, engine, ?_⟩
  · rw [alone t mem]
    exact (List.forall₂_same.1 (List.forall₂_map_right_iff.1 inTurn.results) t mem).symm
  · obtain ⟨⟨took, came⟩, -⟩ := World.executeTask_eq passive goes_on (waveView run f s) t
    rw [← Option.isSome_map (f := Ended.execution), alone t mem, came]
    rfl
  · exact congrArg Engine.Part.kept ((permuted.alike inTurn).part id)
  · rw [wave_eq_settleWave]
    exact ⟨frame', progress', engine'⟩

end

/-- A counter, a collector and a command that do not know of each other. -/
def rivals : Workflow :=
  { nodes := [{ id := "count", config := .counter { limit := 1 } },
      { id := "gather", config := .collector { batch := true, batchSize := 2 } },
      { id := "ask", config := .command { command := "true" } }] }

theorem wave_independent_rivals :
    let g := Graph.ofWorkflow rivals
    let h := Server.attentive .unavailable
    let request : RunRequest := { workflow := rivals }
    let s := request.start (Server.reserved rivals)
    let tasks := g.topFrame.tasks (request.plan g).plane ["count", "gather", "ask"]
    g.topFrame.readyMembers (request.plan g).plane = ["count", "gather", "ask"] ∧
    tasks.reverse.map (·.node.id) = ["ask", "gather", "count"] ∧
    (waveInTurn h (request.plan g) g.topFrame s ["count", "gather", "ask"]
      tasks.reverse).2.progress.results.map (fun r => (r.1, r.2.status)) =
        [("count", .completed), ("gather", .completed), ("ask", .failed)] ∧
    OrderIrrelevant h (request.plan g) g.topFrame s ["count", "gather", "ask"] tasks.reverse := by
  intro g h request s tasks
  have passive : h.Passive := ⟨fun _ _ => rfl, fun _ _ => rfl, fun _ => rfl⟩
  refine ⟨by decide +kernel, by decide +kernel, by decide +kernel, ?_⟩
  exact wave_independent passive (by decide) (List.reverse_perm tasks)

end Flowline
