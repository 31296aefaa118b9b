import Flowline.Proofs.Run.Actions
import Flowline.Proofs.Run.Start

/-!
# The waves of a run and what ends in them

`runWaves` lists the waves of a run with the states in which they begin.  Like `runEvents` it calls
the functions of the run itself, and the executions of a run are those of its waves, in order
(`executions_runEvents`).

`waveEnds` lists what becomes of the nodes of a wave in the order of time, each with the world at
that moment.  An execution that ends counts if and only if the run has not been cancelled by then
(`World.ended_eq_none_iff`), and what counts is what the wave settles (`waveRan_perm`).
-/

namespace Flowline

variable {ω : Type}

/-! ## Waves -/

/-- A wave of a run: a frame dispatches members that are ready. -/
structure WaveOf (ω : Type) where
  place : Place
  frame : Frame
  state : Ongoing ω
  ids : List String

section

variable (h : Host ω) (run : RunPlan)

/-- The nodes of the wave. -/
def WaveOf.tasks (v : WaveOf ω) : List Task := v.frame.tasks run.plane v.ids

/-- What the wave settles. -/
def WaveOf.ran (v : WaveOf ω) : List Ran :=
  (waveRan h run v.frame v.state v.ids).map fun r => ⟨v.place, r.1, r.2⟩

/-- The waves in the frames for the payloads of a region. -/
def iterationWaves (runChild : Frame → Ongoing ω → Frame × Ongoing ω)
    (childWaves : Place → Frame → Ongoing ω → List (WaveOf ω)) (around : Frame)
    (iterator : String) (place : Place) : Nat → List Json → Ongoing ω → List (WaveOf ω)
  | _, [], _ => []
  | number, payload :: rest, s =>
    if s.stopped then []
    else
      let child := run.plane.iterationFrame around iterator number payload
      childWaves ((iterator, number) :: place) child s ++
        iterationWaves runChild childWaves around iterator place (number + 1) rest
          (runChild child s).2

/-- The waves of a frame in at most so many moves, with those of the regions in between. -/
def moveWaves : Nat → Place → Frame → Ongoing ω → List (WaveOf ω)
  | 0, _, _, _ => []
  | moves + 1, place, f, s =>
    if s.stopped then []
    else
      let (after, s) := skipUnreached run f s
      match after.move run.plane with
      | .stop => []
      | .region r =>
        let (next, after_region) := runRegion h run (runMoves h run moves) after s r
        iterationWaves run (runMoves h run moves) (moveWaves moves) (after.takeRegion r.iterator)
            r.iterator place 0 r.payloads s ++
          moveWaves moves place next after_region
      | .wave ids =>
        let (next, after_wave) := wave h run after s ids
        ⟨place, after, s, ids⟩ :: moveWaves moves place next after_wave

end

/-- The waves of a run. -/
def runWaves (h : Host ω) (request : RunRequest) (g : Graph) (w : World ω) : List (WaveOf ω) :=
  moveWaves h (request.plan g) g.moveBound [] g.topFrame (request.start w)

section

variable {h : Host ω} {run : RunPlan}

/-- What is picked of the events of waves. -/
structure PicksWaves {α : Type} (pick : Event → Option α) : Prop where
  entered : ∀ place f, pick ⟨place, .entered f⟩ = none
  skipped : ∀ place ids, pick ⟨place, .skipped ids⟩ = none
  opened : ∀ place r ready, pick ⟨place, .opened r ready⟩ = none
  closed : ∀ place r, pick ⟨place, .closed r⟩ = none
  finished : ∀ place f, pick ⟨place, .finished f⟩ = none

namespace PicksWaves

variable {α : Type} {pick : Event → Option α} (picks : PicksWaves pick)
include picks

theorem filterMap_iterationEvents (run : RunPlan)
    (runChild : Frame → Ongoing ω → Frame × Ongoing ω)
    {childEvents : Place → Frame → Ongoing ω → List Event}
    {childWaves : Place → Frame → Ongoing ω → List (WaveOf ω)} {found : WaveOf ω → List α}
    (child : ∀ place f s, (childEvents place f s).filterMap pick =
      (childWaves place f s).flatMap found)
    (around : Frame) (iterator : String) (place : Place) (number : Nat) (payloads : List Json)
    (s : Ongoing ω) :
    (iterationEvents run runChild childEvents around iterator place number payloads s).filterMap
        pick =
      (iterationWaves run runChild childWaves around iterator place number payloads s).flatMap
        found := by
  induction payloads generalizing number s with
  | nil => rfl
  | cons payload rest ih =>
      unfold iterationEvents iterationWaves
      split
      · rfl
      · rw [List.filterMap_append, List.flatMap_append, ih, ← child,
          List.filterMap_cons_none (picks.entered _ _)]

/-- What is picked of the events of a frame is picked of its waves, in order. -/
theorem filterMap_moveEvents (moves : Nat) (place : Place) (f : Frame) (s : Ongoing ω) :
    (moveEvents h run moves place f s).filterMap pick =
      (moveWaves h run moves place f s).flatMap fun v =>
        (waveEvents h run v.place v.frame v.state v.ids).filterMap pick := by
  induction moves generalizing place f s with
  | zero => rfl
  | succ moves ih =>
      unfold moveEvents moveWaves
      split
      · rfl
      · generalize skipUnreached run f s = after
        dsimp only
        rw [List.filterMap_cons_none (picks.skipped _ _)]
        cases after.1.move run.plane with
        | stop => exact List.filterMap_cons_none (picks.finished _ _)
        | region r =>
            have inner := picks.filterMap_iterationEvents run (runMoves h run moves) ih
              (after.1.takeRegion r.iterator) r.iterator place 0 r.payloads after.2
            dsimp only
            rw [List.filterMap_cons_none (picks.opened _ _ _), List.filterMap_append,
              List.filterMap_cons_none (picks.closed _ _), List.flatMap_append, ih, inner]
        | wave ids =>
            dsimp only
            rw [List.filterMap_append, List.flatMap_cons, ih]

/-- What is picked of a run is picked of its waves, in order. -/
theorem filterMap_runEvents (h : Host ω) (request : RunRequest) (g : Graph) (w : World ω) :
    (runEvents h request g w).filterMap pick =
      (runWaves h request g w).flatMap fun v =>
        (waveEvents h (request.plan g) v.place v.frame v.state v.ids).filterMap pick := by
  unfold runEvents runWaves
  rw [List.filterMap_cons_none (picks.entered _ _)]
  exact picks.filterMap_moveEvents g.moveBound [] g.topFrame (request.start w)

end PicksWaves

end

/-- The executions of a run are those of its waves, in order. -/
theorem executions_runEvents (h : Host ω) (request : RunRequest) (g : Graph) (w : World ω) :
    executions (runEvents h request g w) =
      (runWaves h request g w).flatMap fun v => v.ran h (request.plan g) := by
  refine (PicksWaves.filterMap_runEvents ?picks h request g w).trans ?_
  case picks =>
    exact ⟨fun _ _ => rfl, fun _ _ => rfl, fun _ _ _ => rfl, fun _ _ => rfl, fun _ _ => rfl⟩
  exact List.flatMap_congr fun v _ => executions_map_settled v.place _

/-- The waves that a run dispatches, in order. -/
theorem dispatchedWaves_runEvents (h : Host ω) (request : RunRequest) (g : Graph) (w : World ω) :
    dispatchedWaves (runEvents h request g w) =
      (runWaves h request g w).map fun v => (v.place, v.tasks (request.plan g)) := by
  refine (PicksWaves.filterMap_runEvents ?picks h request g w).trans ?_
  case picks =>
    exact ⟨fun _ _ => rfl, fun _ _ => rfl, fun _ _ _ => rfl, fun _ _ => rfl, fun _ _ => rfl⟩
  rw [List.map_eq_flatMap]
  refine List.flatMap_congr fun v _ => ?_
  unfold waveEvents
  rw [List.filterMap_cons, List.filterMap_map]
  exact congrArg (_ :: ·) (List.filterMap_eq_nil_iff.2 fun _ _ => rfl)

/-! ## Where the waves are in a run -/

/-- A wave begins in a run that goes on.  The run leads from one world to it, and from its end to
another world. -/
structure WaveOf.Between (h : Host ω) (run : RunPlan) (R : World ω → World ω → Prop)
    (w : World ω) (v : WaveOf ω) (w' : World ω) : Prop where
  goes_on : v.state.stopped = false
  before : R w v.state.world
  after : R (wave h run v.frame v.state v.ids).2.world w'

section

variable {h : Host ω} {R : World ω → World ω → Prop} (acts : h.Actions R) {run : RunPlan}
  {v : WaveOf ω}
include acts

theorem WaveOf.Between.widen {w₁ w₂ w₃ w₄ : World ω} (between : v.Between h run R w₂ w₃)
    (first : R w₁ w₂) (last : R w₃ w₄) : v.Between h run R w₁ w₄ :=
  ⟨between.goes_on, acts.trans first between.before, acts.trans between.after last⟩

theorem between_of_mem_iterationWaves {runChild : Frame → Ongoing ω → Frame × Ongoing ω}
    {childWaves : Place → Frame → Ongoing ω → List (WaveOf ω)}
    (runs : ∀ f s, R s.world (runChild f s).2.world)
    (child : ∀ place f s, ∀ v ∈ childWaves place f s,
      v.Between h run R s.world (runChild f s).2.world)
    {around : Frame} {iterator : String} {place : Place} {number : Nat} {payloads : List Json}
    {s : Ongoing ω}
    (mem : v ∈ iterationWaves run runChild childWaves around iterator place number payloads s) :
    v.Between h run R s.world
      (iterations run runChild around iterator number payloads s).2.world := by
  induction payloads generalizing number s with
  | nil => cases mem
  | cons payload rest ih =>
      unfold iterationWaves at mem
      unfold iterations
      split at mem
      · cases mem
      · next goes_on =>
          rw [if_neg goes_on]
          rcases List.mem_append.1 mem with inside | later
          · exact (child _ _ _ v inside).widen acts (acts.refl _)
              (acts.iterations run runs around iterator _ rest _)
          · exact (ih later).widen acts (runs _ _) (acts.refl _)

theorem between_of_mem_moveWaves {moves : Nat} {place : Place} {f : Frame} {s : Ongoing ω}
    (mem : v ∈ moveWaves h run moves place f s) :
    v.Between h run R s.world (runMoves h run moves f s).2.world := by
  induction moves generalizing place f s v with
  | zero => cases mem
  | succ moves ih =>
      unfold moveWaves at mem
      unfold runMoves
      split at mem
      · cases mem
      · next goes_on =>
          rw [if_neg goes_on]
          -- what is skipped leaves the world as it is
          have same : (skipUnreached run f s).2.world = s.world := rfl
          have going : (skipUnreached run f s).2.stopped = false :=
            Bool.not_eq_true _ ▸ goes_on
          generalize skipUnreached run f s = after at *
          rw [← same]
          dsimp only at mem ⊢
          cases move : after.1.move run.plane with
          | stop =>
              rw [move] at mem
              cases mem
          | region r =>
              rw [move] at mem
              have inner := acts.iterations run (acts.runMoves run moves)
                (after.1.takeRegion r.iterator) r.iterator 0 r.payloads after.2
              rcases List.mem_append.1 mem with inside | later
              · exact (between_of_mem_iterationWaves acts (acts.runMoves run moves)
                  (fun _ _ _ _ mem => ih mem) inside).widen acts (acts.refl _)
                  (acts.trans (acts.amends _ _ _) (acts.runMoves run moves _ _))
              · exact (ih later).widen acts (acts.trans inner (acts.amends _ _ _)) (acts.refl _)
          | wave ids =>
              rw [move] at mem
              rcases List.mem_cons.1 mem with rfl | later
              · exact ⟨going, acts.refl _, acts.runMoves run moves _ _⟩
              · exact (ih later).widen acts (acts.wave run _ _ _) (acts.refl _)

/-- A wave of a run lies between the beginning of the run and its end. -/
theorem between_of_mem_runWaves {request : RunRequest} {g : Graph} {w : World ω}
    (mem : v ∈ runWaves h request g w) :
    v.Between h (request.plan g) R w (runGraph h request g w).world :=
  between_of_mem_moveWaves acts mem

end

/-! ## Ends -/

/-- What has become of a node of a wave, and the world at that moment. -/
structure EndOf (ω : Type) where
  task : Task
  ended : Option Ended
  world : World ω

/-- What counts of it. -/
def EndOf.counted? (e : EndOf ω) : Option (Task × Ended) := e.ended.map fun ended => (e.task, ended)

section

variable (h : Host ω)

/-- The nodes of a wave that are over before the next one begins. -/
def World.endsOnStart (view : WaveView) (w : World ω) : List Task → List (EndOf ω)
  | [] => []
  | t :: rest =>
    let (started, next) := w.start h view t
    match started with
    | .over ended => ⟨t, ended, next⟩ :: next.endsOnStart view rest
    | .waiting _ => next.endsOnStart view rest

/-- The nodes that wait, in the order in which their waits are over. -/
def World.endsOfWaits (w : World ω) : List (Nat × Waiting) → List (EndOf ω)
  | [] => []
  | (_, job) :: rest =>
    let (ended, next) := (h.elapse job.due w).finish h job
    ⟨job.task, ended, next⟩ :: next.endsOfWaits rest

/-- What becomes of the nodes of a wave, in the order of time. -/
def waveEnds (view : WaveView) (w : World ω) (tasks : List Task) : List (EndOf ω) :=
  let (started, waiting) := w.startAll h view tasks
  w.endsOnStart h view tasks ++ waiting.endsOfWaits h (byDue (waitingJobs started))

/-- What becomes of the nodes of a wave of a run. -/
def WaveOf.ends (run : RunPlan) (v : WaveOf ω) : List (EndOf ω) :=
  waveEnds h (waveView run v.frame v.state) v.state.world (v.tasks run)

end

section

variable {h : Host ω} {w : World ω} {view : WaveView} {tasks : List Task}

/-! ### When they count -/

theorem World.end_eq_none_iff (w : World ω) (t : Task) (begun : Nat) (outcome : Outcome) :
    (w.end_ h t begun outcome).1 = none ↔ (w.end_ h t begun outcome).2.isCancelled = true := by
  unfold end_
  dsimp only
  split
  · next cancelled => exact iff_of_true rfl cancelled
  · next goes_on => exact iff_of_false (Option.some_ne_none _) goes_on

theorem World.finish_eq_none_iff (w : World ω) (j : Waiting) :
    (w.finish h j).1 = none ↔ (w.finish h j).2.isCancelled = true := end_eq_none_iff _ _ _ _

theorem World.start_eq_none_iff (w : World ω) (view : WaveView) (t : Task) {ended : Option Ended}
    (ends_now : (w.start h view t).1 = .over ended) :
    ended = none ↔ (w.start h view t).2.isCancelled = true := by
  rw [start_eq] at ends_now ⊢
  by_cases cancelled : w.isCancelled = true
  · rw [if_pos cancelled] at ends_now ⊢
    cases ends_now
    exact iff_of_true rfl cancelled
  · rw [if_neg cancelled] at ends_now ⊢
    cases called : (w.planned h view t).1.call? with
    | none =>
        rw [called] at ends_now
        cases ends_now
        exact end_eq_none_iff _ _ _ _
    | some call =>
        rw [called] at ends_now
        dsimp only at ends_now ⊢
        by_cases at_once : (w.jobFor h view t call).waitMs = 0
        · rw [if_pos at_once] at ends_now ⊢
          cases ends_now
          exact finish_eq_none_iff _ _
        · rw [if_neg at_once] at ends_now
          cases ends_now

/-- What ends after the run was cancelled does not count, and nothing else is dropped. -/
theorem ended_eq_none_iff {e : EndOf ω} (mem : e ∈ waveEnds h view w tasks) :
    e.ended = none ↔ e.world.isCancelled = true := by
  rcases List.mem_append.1 mem with at_once | waited
  · clear mem
    induction tasks generalizing w with
    | nil => cases at_once
    | cons t rest ih =>
        have over_iff := fun ended => @World.start_eq_none_iff _ h w view t ended
        unfold World.endsOnStart at at_once
        generalize w.start h view t = started at *
        obtain ⟨ended | job, next⟩ := started
        · rcases List.mem_cons.1 at_once with rfl | later
          · exact over_iff ended rfl
          · exact ih later
        · exact ih at_once
  · clear mem
    generalize (w.startAll h view tasks).2 = w at waited
    generalize byDue (waitingJobs _) = jobs at waited
    induction jobs generalizing w with
    | nil => cases waited
    | cons job rest ih =>
        unfold World.endsOfWaits at waited
        rcases List.mem_cons.1 waited with rfl | later
        · exact World.finish_eq_none_iff _ _
        · exact ih _ later

/-! ### What they are -/

theorem map_endsOnStart (w : World ω) (view : WaveView) (tasks : List Task) :
    (w.endsOnStart h view tasks).map (fun e => (e.task, e.ended)) =
      (tasks.zip (w.startAll h view tasks).1).filterMap fun r =>
        match r.2 with
        | .over ended => some (r.1, ended)
        | .waiting _ => none := by
  induction tasks generalizing w with
  | nil => rfl
  | cons t rest ih =>
      unfold World.endsOnStart World.startAll
      dsimp only
      generalize w.start h view t = started
      obtain ⟨_ | job, next⟩ := started
      · exact congrArg (_ :: ·) (ih next)
      · exact ih next

/-- Of a list of jobs with distinct numbers, each is found by its number. -/
theorem map_endsOfWaits (w : World ω) {jobs : List (Nat × Waiting)}
    (distinct : (jobs.map (·.1)).Nodup) :
    (w.endsOfWaits h jobs).map (fun e => (e.task, e.ended)) =
      jobs.map fun j => (j.2.task, ((w.finishAll h jobs).1.lookup j.1).join) := by
  induction jobs generalizing w with
  | nil => rfl
  | cons job rest ih =>
      obtain ⟨number, job⟩ := job
      obtain ⟨new, distinct⟩ := List.nodup_cons.1 distinct
      unfold World.endsOfWaits World.finishAll
      dsimp only
      rw [List.map_cons, List.map_cons, ih _ distinct, List.lookup_cons_self]
      congr 1
      refine List.map_congr_left fun other mem => ?_
      have differs : (other.1 == number) = false := by
        refine beq_false_of_ne fun same => new ?_
        exact List.mem_map.2 ⟨other, mem, same⟩
      rw [List.lookup_cons, differs]

/-- The job of a node that waits is that of its task. -/
theorem task_of_waiting (w : World ω) (view : WaveView) (tasks : List Task) :
    List.Forall₂ (fun t started => ∀ job, started = Started.waiting job → job.task = t) tasks
      (w.startAll h view tasks).1 := by
  induction tasks generalizing w with
  | nil => exact .nil
  | cons t rest ih =>
      refine .cons (fun job waits => ?_) (ih _)
      obtain ⟨call, -, rfl⟩ := World.start_eq_waiting h view waits
      rfl

/-- A wave comes to what its nodes have come to that are over, and to what those that wait come
to. -/
theorem zip_endedInOrder_perm {started : List Started} (finished : List (Nat × Option Ended))
    (own : List.Forall₂ (fun t started => ∀ job, started = Started.waiting job → job.task = t)
      tasks started) :
    (tasks.zip (endedInOrder started finished)).Perm
      ((tasks.zip started).filterMap (fun r =>
          match r.2 with
          | .over ended => some (r.1, ended)
          | .waiting _ => none) ++
        (waitingJobs started).map fun j => (j.2.task, (finished.lookup j.1).join)) := by
  unfold endedInOrder waitingJobs
  generalize 0 = number
  induction own generalizing number with
  | nil => exact .nil
  | @cons t first tasks started same _ ih =>
      rw [List.zipIdx_cons, List.map_cons, List.zip_cons_cons, List.zip_cons_cons,
        List.filterMap_cons, List.filterMap_cons]
      cases first with
      | «over» ended => exact (ih (number + 1)).cons _
      | waiting job =>
          dsimp only
          rw [List.map_cons, same job rfl]
          exact ((ih (number + 1)).cons _).trans List.perm_middle.symm

/-- The ends of a wave are what its nodes come to. -/
theorem runWave_perm (w : World ω) (view : WaveView) (tasks : List Task) :
    (tasks.zip (runWave h view w tasks).1).Perm
      ((waveEnds h view w tasks).map fun e => (e.task, e.ended)) := by
  have distinct : ((byDue (waitingJobs (w.startAll h view tasks).1)).map (·.1)).Nodup :=
    ((byDue_perm _).map (·.1)).nodup_iff.2 (nodup_waitingJobs _)
  unfold waveEnds runWave
  dsimp only
  rw [List.map_append, map_endsOnStart, map_endsOfWaits _ distinct]
  exact (zip_endedInOrder_perm _ (task_of_waiting w view tasks)).trans
    (((byDue_perm _).symm.map _).append_left _)

/-- What a wave settles is what counts of its ends. -/
theorem waveRan_perm (run : RunPlan) (f : Frame) (s : Ongoing ω) (ids : List String) :
    (waveRan h run f s ids).Perm
      ((waveEnds h (waveView run f s) s.world (f.tasks run.plane ids)).filterMap
        EndOf.counted?) := by
  have all := (runWave_perm s.world (waveView run f s) (f.tasks run.plane ids) (h := h)).filterMap
    fun r => r.2.map fun ended => (r.1, ended)
  rw [List.filterMap_map] at all
  exact all

end

/-! ### Where they are -/

section

variable {h : Host ω} {R : World ω → World ω → Prop} (acts : h.Actions R)
include acts

/-- An end of a wave lies between its beginning and the moment at which all its nodes are over. -/
theorem Host.Actions.waveEnds {view : WaveView} {w : World ω} {tasks : List Task} {e : EndOf ω}
    (mem : e ∈ waveEnds h view w tasks) :
    R w e.world ∧ R e.world (Flowline.runWave h view w tasks).2 := by
  have parts := List.mem_append.1 mem
  clear mem
  have waits (w : World ω) (jobs : List (Nat × Waiting)) (mem : e ∈ w.endsOfWaits h jobs) :
      R w e.world ∧ R e.world (w.finishAll h jobs).2 := by
    induction jobs generalizing w with
    | nil => cases mem
    | cons job rest ih =>
        have waited := acts.trans (acts.waits w job.2.due) (acts.finish (h.elapse job.2.due w) job.2)
        rcases List.mem_cons.1 mem with rfl | later
        · exact ⟨waited, acts.finishAll _ rest⟩
        · obtain ⟨before, after⟩ := ih _ later
          exact ⟨acts.trans waited before, after⟩
  have starts (w : World ω) (mem : e ∈ w.endsOnStart h view tasks) :
      R w e.world ∧ R e.world (w.startAll h view tasks).2 := by
    clear waits parts
    induction tasks generalizing w with
    | nil => cases mem
    | cons t rest ih =>
        have started := acts.start w view t
        have others (next : World ω) := acts.startAll next view rest
        unfold World.endsOnStart at mem
        unfold World.startAll
        generalize w.start h view t = first at *
        obtain ⟨ended | job, next⟩ := first
        · rcases List.mem_cons.1 mem with rfl | later
          · exact ⟨started, others next⟩
          · obtain ⟨before, after⟩ := ih next later
            exact ⟨acts.trans started before, after⟩
        · obtain ⟨before, after⟩ := ih next mem
          exact ⟨acts.trans started before, after⟩
  rcases parts with at_once | waited
  · obtain ⟨before, after⟩ := starts w at_once
    exact ⟨before, acts.trans after (acts.finishAll _ _)⟩
  · obtain ⟨before, after⟩ := waits _ _ waited
    exact ⟨acts.trans (acts.startAll w view tasks) before, after⟩

/-- An end in a run lies between the beginning of the run and its end. -/
theorem Host.Actions.endsOf {run : RunPlan} {w w' : World ω} {v : WaveOf ω} {e : EndOf ω}
    (between : v.Between h run R w w') (mem : e ∈ v.ends h run) : R w e.world ∧ R e.world w' := by
  obtain ⟨before, after⟩ := acts.waveEnds mem
  have settled := acts.settleRan v.frame.iteration
    { v.state with world := (Flowline.runWave h (waveView run v.frame v.state) v.state.world
      (v.tasks run)).2 } (waveRan h run v.frame v.state v.ids)
  have last := between.after
  rw [wave_eq] at last
  exact ⟨acts.trans between.before before, acts.trans after (acts.trans settled last)⟩

end

end Flowline
