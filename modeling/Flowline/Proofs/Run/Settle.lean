import Flowline.Proofs.Run.Moves
import Flowline.Proofs.Run.Wave

/-!
# What a run leaves behind as it goes on

`Ongoing.Advance` is what holds between any two moments of a run: the log grows by some entries, a
run that was stopped stays so, and a node that has a result keeps one.

* `advance_wave`: a wave logs one entry for each execution that it settles, in order
  (`LogEntry.Describes`).
* `waveRan_complete`: unless the run is cancelled meanwhile, a wave settles an execution of each of
  its nodes.
* `advance_reportRegion`, `advance_skipUnreached`: the other moves log nothing.
-/

namespace Flowline

variable {ω : Type}

/-- The log entry tells of an execution in the frame at a place. -/
structure LogEntry.Describes (entry : LogEntry) (place : Place) (t : Task) (x : Execution) :
    Prop where
  kind : entry.kind = t.node.kind
  name : entry.name = t.node.id
  sourceIds : entry.sourceIds = t.sources
  sourceData : entry.sourceData = t.inputValue
  data : entry.data = x.data
  error : entry.error = x.error
  iteration : entry.iteration = place.head?.map (·.2)
  iteratorId : entry.iteratorId = place.head?.map (·.1)

/-- A run leads from one moment to another and logs some entries on the way. -/
structure Ongoing.Advance (s : Ongoing ω) (logged : List LogEntry) (s' : Ongoing ω) : Prop where
  world : World.Advance s.world logged s'.world
  halted : s.progress.halted = true → s'.progress.halted = true
  results : s.progress.results.keys ⊆ s'.progress.results.keys
  distinct : s.progress.results.keys.Nodup → s'.progress.results.keys.Nodup

namespace Ongoing

variable {s s' s'' : Ongoing ω} {logged more : List LogEntry}

theorem Advance.refl (s : Ongoing ω) : Advance s [] s where
  world := .refl s.world
  halted := id
  results := fun _ mem => mem
  distinct := id

theorem Advance.trans (first : Advance s logged s') (second : Advance s' more s'') :
    Advance s (logged ++ more) s'' where
  world := first.world.trans second.world
  halted halted := second.halted (first.halted halted)
  results := fun _ mem => second.results (first.results mem)
  distinct distinct := second.distinct (first.distinct distinct)

theorem Advance.held (advance : Advance s logged s') (slot : s.world.engine.slotHeld = true) :
    s'.world.engine.slotHeld = true := advance.world.held slot

/-- A run that was stopped stays so. -/
theorem Advance.stopped (advance : Advance s logged s') (slot : s.world.engine.slotHeld = true)
    (stopped : s.stopped = true) : s'.stopped = true := by
  rw [Ongoing.stopped, Bool.or_eq_true] at stopped ⊢
  exact stopped.imp (advance.world.cancelled slot) advance.halted

end Ongoing

/-! ## The progress of a run -/

namespace Progress

variable {q : Progress} {id : String}

theorem get?_record (q : Progress) (n : Node) (x : Execution) (id : String) :
    (q.record n x).results.get? id =
      if id = n.id then some ((q.result n.id).record x) else q.results.get? id :=
  Entries.get?_put q.results n.id id _

theorem mem_keys_record {n : Node} {x : Execution} :
    id ∈ (q.record n x).results.keys ↔ id = n.id ∨ id ∈ q.results.keys := Entries.mem_keys_put

/-- Only nodes without a result are skipped. -/
theorem get?_skip (q : Progress) (ids : List String) (id : String) :
    (q.skip ids).results.get? id =
      (q.results.get? id).or (if id ∈ ids then some {} else none) := by
  unfold skip
  generalize q.results = results
  dsimp only
  induction ids generalizing results with
  | nil => simp
  | cons first rest ih =>
      rw [List.foldl_cons, ih, Entries.has_eq_isSome]
      cases known : results.get? first with
      | some r =>
          rw [Option.isSome_some, if_pos rfl]
          by_cases same : id = first
          · simp [same, known]
          · simp [same]
      | none =>
          rw [Option.isSome_none, if_neg Bool.false_ne_true, Entries.get?_put]
          by_cases same : id = first
          · simp [same, known]
          · simp [same]

theorem mem_keys_skip {ids : List String} :
    id ∈ (q.skip ids).results.keys ↔ id ∈ q.results.keys ∨ id ∈ ids := by
  rw [← Entries.get?_isSome_iff, ← Entries.get?_isSome_iff, get?_skip]
  by_cases skipped : id ∈ ids
  · simp [skipped]
  · simp [skipped]

theorem nodup_skip (distinct : q.results.keys.Nodup) (ids : List String) :
    (q.skip ids).results.keys.Nodup := by
  unfold skip
  generalize q.results = results at distinct
  dsimp only
  induction ids generalizing results with
  | nil => exact distinct
  | cons first rest ih =>
      rw [List.foldl_cons]
      refine ih _ ?_
      split
      · exact distinct
      · exact Entries.nodup_keys_put distinct

theorem keys_amend (q : Progress) (iterator : String) (data : Json) :
    (q.amend iterator data).results.keys = q.results.keys := by
  unfold amend
  cases known : q.results.get? iterator with
  | none => rfl
  | some r =>
      have there : iterator ∈ q.results.keys := by
        rw [← Entries.get?_isSome_iff, known]
        rfl
      exact (Entries.keys_put _ _ _).trans (if_pos there)

end Progress

/-! ## Settling what ran -/

namespace Ongoing

/-- Settle an execution in the run. -/
def settle (h : Host ω) (iteration : Option (String × Nat)) (s : Ongoing ω) (t : Task)
    (ended : Ended) : Ongoing ω :=
  let progress := s.progress.record t.node ended.execution
  { progress
    world := s.world.reportExecution h t iteration ended.execution ended.durationMs
      progress.variables }

/-- Settle what the nodes of a wave came to, in order. -/
def settleRan (h : Host ω) (iteration : Option (String × Nat)) (s : Ongoing ω)
    (ran : List (Task × Ended)) : Ongoing ω :=
  ran.foldl (fun s r => s.settle h iteration r.1 r.2) s

end Ongoing

/-- Count what the nodes of a wave came to in, in order. -/
def Progress.recordRan (q : Progress) (ran : List (Task × Ended)) : Progress :=
  ran.foldl (fun q r => q.record r.1.node r.2.execution) q

theorem Progress.mem_keys_recordRan {q : Progress} {ran : List (Task × Ended)} {id : String} :
    id ∈ (q.recordRan ran).results.keys ↔ id ∈ Frame.ranIds ran ∨ id ∈ q.results.keys := by
  induction ran generalizing q with
  | nil => simp [recordRan, Frame.ranIds]
  | cons r rest ih =>
      have step : q.recordRan (r :: rest) = (q.record r.1.node r.2.execution).recordRan rest := rfl
      rw [step, ih, mem_keys_record, Frame.ranIds, Frame.ranIds, List.map_cons, List.mem_cons]
      tauto

theorem Ongoing.progress_settleRan (h : Host ω) (iteration : Option (String × Nat)) (s : Ongoing ω)
    (ran : List (Task × Ended)) :
    (s.settleRan h iteration ran).progress = s.progress.recordRan ran := by
  induction ran generalizing s with
  | nil => rfl
  | cons r rest ih => exact ih (s.settle h iteration r.1 r.2)

section

variable {h : Host ω} (alone : h.LeavesRunsAlone)
include alone

theorem advance_reportOutput (w : World ω) (id : String) (data : Json) :
    World.Advance w [] (w.reportOutput h id data) :=
  alone.observed (World.advance_modifyState w rfl) _

/-- Reporting an execution logs one entry, which tells of it. -/
theorem advance_reportExecution (w : World ω) (t : Task) {iteration : Option (String × Nat)}
    {place : Place} (here : iteration = place.head?) (x : Execution) (durationMs : Nat)
    (env : Entries String) :
    ∃ entry : LogEntry, entry.Describes place t x ∧ World.Advance w [entry]
      (w.reportExecution h t iteration x durationMs env) := by
  subst here
  have shown : World.Advance w [] (if x.continues t.node then w.reportOutput h t.node.id x.data
      else w) := by
    split
    · exact advance_reportOutput alone w _ _
    · exact .refl w
  generalize first : (if x.continues t.node then w.reportOutput h t.node.id x.data else w) = w₁
    at shown
  have updated := alone.observed shown (.update t.node.id (w₁.stateAfter t.node x))
  generalize second : h.observe (.update t.node.id (w₁.stateAfter t.node x)) w₁ = w₂ at updated
  let entry : LogEntry :=
    { id := w₂.freshId.1, timestamp := w₂.freshId.2.instant, kind := t.node.kind
      name := t.node.id, sourceIds := t.sources, sourceData := t.inputValue, data := x.data
      error := x.error, iteration := place.head?.map (·.2), iteratorId := place.head?.map (·.1)
      durationMs }
  refine ⟨entry, ⟨rfl, rfl, rfl, rfl, rfl, rfl, rfl, rfl⟩, ?_⟩
  have numbered : World.Advance w [] w₂.freshId.2 :=
    ⟨updated.held, updated.cancelled, updated.log⟩
  have logged : World.Advance w [entry] (w₂.reportLog h t place.head? x durationMs) :=
    alone.observed (numbered.trans (World.advance_appendLog w₂.freshId.2 entry)) _
  unfold World.reportExecution
  dsimp only
  rw [first, second]
  split
  · exact logged
  · exact alone.observed logged _

/-- Settling an execution counts it in and logs it. -/
theorem advance_settle (s : Ongoing ω) {iteration : Option (String × Nat)} {place : Place}
    (here : iteration = place.head?) (t : Task) (ended : Ended) :
    ∃ entry : LogEntry, entry.Describes place t ended.execution ∧
      Ongoing.Advance s [entry] (s.settle h iteration t ended) := by
  obtain ⟨entry, describes, world⟩ := advance_reportExecution alone s.world t here ended.execution
    ended.durationMs (s.progress.record t.node ended.execution).variables
  refine ⟨entry, describes, world, fun halted => ?_, fun id mem => ?_, fun distinct => ?_⟩
  · exact Bool.or_eq_true_iff.2 (Or.inl halted)
  · exact Progress.mem_keys_record.2 (Or.inr mem)
  · exact Entries.nodup_keys_put distinct

theorem advance_settleRan (s : Ongoing ω) {iteration : Option (String × Nat)} {place : Place}
    (here : iteration = place.head?) (ran : List (Task × Ended)) :
    ∃ logged, List.Forall₂ (fun entry (r : Task × Ended) =>
        LogEntry.Describes entry place r.1 r.2.execution) logged ran ∧
      Ongoing.Advance s logged (s.settleRan h iteration ran) := by
  induction ran generalizing s with
  | nil => exact ⟨[], .nil, .refl s⟩
  | cons r rest ih =>
      obtain ⟨entry, describes, first⟩ := advance_settle alone s here r.1 r.2
      obtain ⟨logged, all, more⟩ := ih (s.settle h iteration r.1 r.2)
      exact ⟨entry :: logged, .cons describes all, first.trans more⟩

end

/-! ## Waves -/

section

variable (h : Host ω) (run : RunPlan) (f : Frame) (s : Ongoing ω) (ids : List String)

/-- What all nodes of a wave see. -/
def waveView : WaveView :=
  ⟨run.integrations, run.previous, .obj f.scope, s.progress.variables⟩

/-- The executions that a wave settles, in order. -/
def waveRan : List (Task × Ended) :=
  let tasks := f.tasks run.plane ids
  (tasks.zip (runWave h (waveView run f s) s.world tasks).1).filterMap fun r =>
    r.2.map fun ended => (r.1, ended)

theorem foldl_settle_eq (p : Plane) (f : Frame) (s : Ongoing ω)
    (zipped : List (Task × Option Ended)) :
    zipped.foldl
      (fun (f, s) (task, ended) =>
        match ended with
        | some e => settle h p f s task e.execution e.durationMs
        | none => (f, s))
      (f, s) =
      (let ran := zipped.filterMap fun r => r.2.map fun ended => (r.1, ended)
       (f.settleRan p ran, s.settleRan h f.iteration ran)) := by
  induction zipped generalizing f s with
  | nil => rfl
  | cons r rest ih =>
      obtain ⟨t, _ | ended⟩ := r
      · exact ih f s
      · have more := ih (f.settle p t.node ended.execution) (s.settle h f.iteration t ended)
        rw [Frame.iteration_settle] at more
        exact more

/-- A wave settles what its nodes came to in the frame and in the run. -/
theorem wave_eq : wave h run f s ids =
    (let ran := waveRan h run f s ids
     let world := (runWave h (waveView run f s) s.world (f.tasks run.plane ids)).2
     ((f.dispatch ids).settleRan run.plane ran,
       Ongoing.settleRan h f.iteration { s with world } ran)) :=
  foldl_settle_eq h run.plane (f.dispatch ids) _ _

end

section

variable {h : Host ω} {run : RunPlan} {f : Frame} {s : Ongoing ω} {ids : List String}

theorem waveRan_sublist : ((waveRan h run f s ids).map (·.1)).Sublist (f.tasks run.plane ids) := by
  unfold waveRan
  dsimp only
  generalize f.tasks run.plane ids = tasks
  generalize (runWave h (waveView run f s) s.world tasks).1 = ended
  induction tasks generalizing ended with
  | nil => exact .slnil
  | cons t rest ih =>
      cases ended with
      | nil => exact List.nil_sublist _
      | cons first more =>
          rw [List.zip_cons_cons, List.filterMap_cons]
          cases first with
          | none => exact (ih more).cons _
          | some ended => exact (ih more).cons_cons _

variable (alone : h.LeavesRunsAlone)
include alone

/-- A wave logs one entry for each execution that it settles. -/
theorem advance_wave (run : RunPlan) (s : Ongoing ω) (ids : List String)
    {place : Place} (here : f.iteration = place.head?) :
    ∃ logged, List.Forall₂ (fun entry (r : Task × Ended) =>
        LogEntry.Describes entry place r.1 r.2.execution) logged (waveRan h run f s ids) ∧
      Ongoing.Advance s logged (wave h run f s ids).2 := by
  have quiet := advance_runWave alone (waveView run f s) s.world (f.tasks run.plane ids)
  rw [wave_eq]
  obtain ⟨logged, describe, settled⟩ := advance_settleRan alone
    { s with world := (runWave h (waveView run f s) s.world (f.tasks run.plane ids)).2 } here
    (waveRan h run f s ids)
  refine ⟨logged, describe, ?_⟩
  have begun : Ongoing.Advance s []
      { s with world := (runWave h (waveView run f s) s.world (f.tasks run.plane ids)).2 } :=
    ⟨quiet, id, fun _ mem => mem, id⟩
  exact begun.trans settled

variable (slot : s.world.engine.slotHeld = true)
include slot

/-- What a wave settles is what its nodes can come to. -/
theorem canComeTo_of_mem_waveRan {r : Task × Ended} (mem : r ∈ waveRan h run f s ids) :
    r.1.node.CanComeTo r.2.execution := by
  have comes := runWave_comes alone slot (waveView run f s) (f.tasks run.plane ids)
  obtain ⟨⟨t, ended⟩, zipped, found⟩ := List.mem_filterMap.1 mem
  obtain ⟨e, rfl, rfl⟩ := Option.map_eq_some_iff.1 found
  exact (List.forall₂_iff_zip.1 comes).2 zipped

/-- Unless the run is cancelled meanwhile, a wave settles an execution of each of its nodes. -/
theorem waveRan_complete (goes_on : (wave h run f s ids).2.stopped = false) :
    (waveRan h run f s ids).map (·.1) = f.tasks run.plane ids := by
  have quiet := advance_runWave alone (waveView run f s) s.world (f.tasks run.plane ids)
  have comes := runWave_comes alone slot (waveView run f s) (f.tasks run.plane ids)
  have here : f.iteration = f.iteration.toList.head? := by
    cases f.iteration <;> rfl
  obtain ⟨logged, -, settled⟩ := advance_settleRan alone
    { s with world := (runWave h (waveView run f s) s.world (f.tasks run.plane ids)).2 } here
    (waveRan h run f s ids)
  rw [wave_eq] at goes_on
  dsimp only at goes_on
  have uncancelled :
      (runWave h (waveView run f s) s.world (f.tasks run.plane ids)).2.isCancelled = false := by
    rw [← Bool.not_eq_true]
    intro cancelled
    have later := settled.stopped (quiet.held slot) (Bool.or_eq_true_iff.2 (Or.inl cancelled))
    exact Bool.noConfusion (goes_on.symm.trans later)
  clear goes_on settled quiet
  unfold waveRan
  dsimp only
  generalize (runWave h (waveView run f s) s.world (f.tasks run.plane ids)).2 = w at *
  generalize (runWave h (waveView run f s) s.world (f.tasks run.plane ids)).1 = ended at *
  generalize f.tasks run.plane ids = tasks at *
  induction comes with
  | nil => rfl
  | @cons t first tasks more comes _ ih =>
      cases first with
      | none => exact absurd comes (by simp [World.Comes, uncancelled])
      | some ended => simpa using ih

end

/-! ## Regions and skips -/

theorem advance_reportRegion {h : Host ω} (alone : h.LeavesRunsAlone) (s : Ongoing ω)
    (iterator : String) (data : Json) :
    Ongoing.Advance s [] (reportRegion h s iterator data) where
  world := alone.observed (advance_reportOutput alone s.world iterator data) _
  halted halted := by
    show (s.progress.amend iterator data).halted = true
    unfold Progress.amend
    split
    · exact halted
    · exact halted
  results := by
    show s.progress.results.keys ⊆ (s.progress.amend iterator data).results.keys
    rw [Progress.keys_amend]
    exact fun _ mem => mem
  distinct distinct := by
    show (s.progress.amend iterator data).results.keys.Nodup
    rw [Progress.keys_amend]
    exact distinct

theorem advance_skipUnreached (run : RunPlan) (f : Frame) (s : Ongoing ω) :
    Ongoing.Advance s [] (skipUnreached run f s).2 where
  world := .refl s.world
  halted := id
  results _ mem := Progress.mem_keys_skip.2 (Or.inl mem)
  distinct distinct := Progress.nodup_skip distinct _

end Flowline
