import Flowline.Proofs.Node.Bindings
import Flowline.Proofs.Run.Alone
import Flowline.Proofs.Run.Stops

/-!
# What variables a node sees

The variables are passed from wave to wave, through all frames: each wave begins with those that
the waves before it have left (`Threads`, `threads_moveWaves`), and whatever its nodes do, they see
these and no others (`forall₂_planned_runWave`).  What is left is what the executions of the waves
have written over the variables of the request (`passesVariables`).

None of this depends on the rest of the program.  It is asked to leave the log alone only where the
order of the log is concerned.
-/

namespace Flowline

open Api

variable {ω : Type}

/-- What executions write, one after the other, over the variables at the start. -/
def written (start : Entries String) (ran : List Ran) : Entries String :=
  ran.foldl (fun v x => v.putAll x.ended.execution.variables) start

theorem writes_eq_written (start : Entries String) (events : List Event) :
    writes start events = written start (executions events) := rfl

theorem written_append (start : Entries String) (ran more : List Ran) :
    written start (ran ++ more) = written (written start ran) more := List.foldl_append

/-- The value of a variable is what has been written last, or that at the start. -/
theorem get?_written (start : Entries String) (ran : List Ran) (name : String) :
    (written start ran).get? name =
      ((Entries.ofList (ran.flatMap fun x => x.ended.execution.variables)).get? name).or
        (start.get? name) := by
  have all : written start ran =
      start.putAll (ran.flatMap fun x => x.ended.execution.variables) := by
    induction ran generalizing start with
    | nil => rfl
    | cons x rest ih =>
        rw [List.flatMap_cons, Entries.putAll_append]
        exact ih _
  rw [all, Entries.get?_putAll]

/-! ## From wave to wave -/

section

variable (h : Host ω) (run : RunPlan)

/-- Each of some waves begins with the variables that those before it have left. -/
inductive Threads : Entries String → List (WaveOf ω) → Entries String → Prop where
  | nil (start : Entries String) : Threads start [] start
  | cons {v : WaveOf ω} {later : List (WaveOf ω)} {last : Entries String}
      (rest : Threads (written v.state.progress.variables (v.ran h run)) later last) :
      Threads v.state.progress.variables (v :: later) last

variable {h run} {start middle last : Entries String} {waves later : List (WaveOf ω)}

theorem Threads.append (first : Threads h run start waves middle)
    (second : Threads h run middle later last) : Threads h run start (waves ++ later) last := by
  induction first with
  | nil => exact second
  | cons _ ih => exact .cons (ih second)

/-- The last variables are what all waves have written. -/
theorem Threads.last_eq (threads : Threads h run start waves last) :
    last = written start (waves.flatMap fun v => v.ran h run) := by
  induction threads with
  | nil => rfl
  | cons _ ih => rw [List.flatMap_cons, written_append, ih]

/-- A wave begins with what the waves before it have written. -/
theorem Threads.variables_eq (threads : Threads h run start waves last)
    {before after : List (WaveOf ω)} {v : WaveOf ω} (split : waves = before ++ v :: after) :
    v.state.progress.variables = written start (before.flatMap fun v => v.ran h run) := by
  induction before generalizing start waves with
  | nil =>
      subst split
      cases threads
      rfl
  | cons first before ih =>
      subst split
      cases threads with
      | cons rest => rw [ih rest rfl, List.flatMap_cons, written_append]

theorem Progress.variables_amend (q : Progress) (id : String) (data : Json) :
    (q.amend id data).variables = q.variables := by
  unfold amend
  split
  · rfl
  · rfl

/-- A wave leaves the variables that its executions have written. -/
theorem variables_wave (place : Place) (f : Frame) (s : Ongoing ω) (ids : List String) :
    (wave h run f s ids).2.progress.variables =
      written s.progress.variables ((⟨place, f, s, ids⟩ : WaveOf ω).ran h run) := by
  rw [wave_eq]
  dsimp only
  rw [Ongoing.progress_settleRan, Progress.variables_recordRan _ place, writes_eq_written,
    executions_map_settled]
  rfl

theorem threads_iterationWaves {runChild : Frame → Ongoing ω → Frame × Ongoing ω}
    {childWaves : Place → Frame → Ongoing ω → List (WaveOf ω)}
    (child : ∀ place f s, Threads h run s.progress.variables (childWaves place f s)
      (runChild f s).2.progress.variables)
    (around : Frame) (iterator : String) (place : Place) (number : Nat) (payloads : List Json)
    (s : Ongoing ω) :
    Threads h run s.progress.variables
      (iterationWaves run runChild childWaves around iterator place number payloads s)
      (iterations run runChild around iterator number payloads s).2.progress.variables := by
  induction payloads generalizing number s with
  | nil => exact .nil _
  | cons payload rest ih =>
      unfold iterationWaves iterations
      split
      · exact .nil _
      · exact (child _ _ _).append (ih _ _)

/-- A frame passes the variables on through all its waves, with those of its regions. -/
theorem threads_moveWaves (moves : Nat) (place : Place) (f : Frame) (s : Ongoing ω) :
    Threads h run s.progress.variables (moveWaves h run moves place f s)
      (runMoves h run moves f s).2.progress.variables := by
  induction moves generalizing place f s with
  | zero => exact .nil _
  | succ moves ih =>
      unfold moveWaves runMoves
      split
      · exact .nil _
      · -- what is skipped writes nothing
        rw [show s.progress.variables = (skipUnreached run f s).2.progress.variables from rfl]
        generalize skipUnreached run f s = after
        dsimp only
        cases after.1.move run.plane with
        | stop => exact .nil _
        | region r =>
            have inner := threads_iterationWaves ih (after.1.takeRegion r.iterator) r.iterator
              place 0 r.payloads after.2
            have kept :
                (runRegion h run (runMoves h run moves) after.1 after.2 r).2.progress.variables =
                  (iterations run (runMoves h run moves) (after.1.takeRegion r.iterator) r.iterator
                    0 r.payloads after.2).2.progress.variables := Progress.variables_amend _ _ _
            refine inner.append ?_
            rw [← kept]
            exact ih _ _ _
        | wave ids =>
            have later := ih place (wave h run after.1 after.2 ids).1
              (wave h run after.1 after.2 ids).2
            rw [variables_wave place] at later
            exact .cons (v := ⟨place, after.1, after.2, ids⟩) later

end

/-! ## In a wave -/

section

variable (h : Host ω) (view : WaveView)

/-- The plan is one that the node makes of what all nodes of the wave see. -/
def PlannedIn (t : Task) (plan : Plan) : Prop :=
  ∃ (w : World ω) (store : NodeStore), plan = (t.node.plan (w.context h view t) store).1

/-- The execution, if there is one, comes of such a plan. -/
def ComesOfPlan (t : Task) (result : Option Ended) : Prop :=
  ∀ ended, result = some ended → ∃ plan outcome, PlannedIn h view t plan ∧
    plan.CanEndIn outcome ∧ ended.execution = .ofOutcome outcome

variable {h view} {w : World ω} {t : Task}

theorem PlannedIn.comes_end {plan : Plan} (planned : PlannedIn h view t plan) {outcome : Outcome}
    (can : plan.CanEndIn outcome) (t' : Task) (begun : Nat) :
    ComesOfPlan h view t (w.end_ h t' begun outcome).1 := by
  intro ended came
  unfold World.end_ at came
  dsimp only at came
  split at came
  · cases came
  · cases came
    exact ⟨plan, outcome, planned, can, rfl⟩

theorem PlannedIn.comes_finish {j : Waiting} (planned : PlannedIn h view t j.plan) :
    ComesOfPlan h view t (w.finish h j).1 :=
  planned.comes_end (Plan.canEndIn_outcomeAfter _ _ _) _ _

/-- A node that starts comes to an outcome of its plan, or waits with it. -/
theorem planned_start (w : World ω) (t : Task) :
    (w.start h view t).1.Is (ComesOfPlan h view t) fun j => PlannedIn h view t j.plan := by
  have planned : PlannedIn h view t (w.planned h view t).1 :=
    ⟨w.begin_ h t, (w.begin_ h t).engine.store, World.plan_planned h view w t⟩
  have waits (call : ServiceCall) : PlannedIn h view t (w.jobFor h view t call).plan := by
    rw [World.plan_jobFor]
    exact planned
  rw [World.start_eq]
  split
  · exact fun _ came => nomatch came
  · cases (w.planned h view t).1.call? with
    | none => exact planned.comes_end (Or.inl ⟨_, rfl⟩) _ _
    | some call =>
        dsimp only
        split
        · exact (waits call).comes_finish
        · exact waits call

theorem forall₂_planned_startAll (w : World ω) (tasks : List Task) :
    List.Forall₂ (fun t started => started.Is (ComesOfPlan h view t)
      fun j => PlannedIn h view t j.plan) tasks (w.startAll h view tasks).1 := by
  induction tasks generalizing w with
  | nil => exact .nil
  | cons t rest ih => exact .cons (planned_start w t) (ih _)

theorem forall₂_planned_finishAll (w : World ω) (jobs : List (Nat × Waiting)) :
    List.Forall₂ (fun j r => r.1 = j.1 ∧ ∀ t, PlannedIn h view t j.2.plan →
      ComesOfPlan h view t r.2) jobs (w.finishAll h jobs).1 := by
  induction jobs generalizing w with
  | nil => exact .nil
  | cons job rest ih => exact .cons ⟨rfl, fun _ planned => planned.comes_finish⟩ (ih _)

/-- Each node of a wave comes to an outcome of a plan that it makes of what all of them see. -/
theorem forall₂_planned_runWave (w : World ω) (tasks : List Task) :
    List.Forall₂ (ComesOfPlan h view) tasks (runWave h view w tasks).1 := by
  let jobs := byDue (waitingJobs (w.startAll h view tasks).1)
  have distinct : (jobs.map (·.1)).Nodup :=
    ((byDue_perm _).map (·.1)).nodup_iff.2 (nodup_waitingJobs _)
  refine World.forall₂_endedInOrder (forall₂_planned_startAll w tasks)
    fun number job t mem planned => ?_
  have waits : (number, job) ∈ jobs := (byDue_perm _).mem_iff.2 (mem_waitingJobs.2 mem)
  obtain ⟨ended, found, comes⟩ := lookup_of_forall₂
    (P := fun j r => ∀ t, PlannedIn h view t j.plan → ComesOfPlan h view t r)
    (forall₂_planned_finishAll _ jobs) distinct waits
  exact ⟨ended, found, comes t planned⟩

end

/-! ## In a run -/

/-- What is seen of variables in a run of the graph from a world on, and what is written. -/
structure PassesVariables (h : Host ω) (request : RunRequest) (g : Graph) (begun : World ω) :
    Prop where
  /-- The waves are what the run dispatches, -/
  dispatches : dispatchedWaves (runEvents h request g begun) =
    (runWaves h request g begun).map fun v => (v.place, v.tasks (request.plan g))
  /-- and what they settle are its executions, in order. -/
  executions : executions (runEvents h request g begun) =
    (runWaves h request g begun).flatMap fun v => v.ran h (request.plan g)
  /-- Each node of a wave sees the variables of the request with what the executions of all waves
  before it have written over them. -/
  sees : ∀ before v after, runWaves h request g begun = before ++ v :: after →
    ∀ (w : World ω) (t : Task),
      (w.context h (waveView (request.plan g) v.frame v.state) t).scope.env =
        written request.environment.variables (before.flatMap fun v => v.ran h (request.plan g))
  /-- Each execution comes of a plan made of what its wave sees. -/
  planned : ∀ v ∈ runWaves h request g begun, ∀ x ∈ v.ran h (request.plan g),
    ComesOfPlan h (waveView (request.plan g) v.frame v.state) x.task (some x.ended)
  /-- It writes what the binding of its node says, -/
  writes : ∀ x ∈ Flowline.executions (runEvents h request g begun),
    x.ended.execution.Binds x.task.node.config.binding?
  /-- and in the end all is written. -/
  last : (runGraph h request g begun).progress.variables =
    written request.environment.variables (Flowline.executions (runEvents h request g begun))

theorem ComesOfPlan.canComeTo {h : Host ω} {view : WaveView} {t : Task} {ended : Ended}
    (comes : ComesOfPlan h view t (some ended)) : t.node.CanComeTo ended.execution := by
  obtain ⟨plan, outcome, ⟨w, store, made⟩, can, came⟩ := comes ended rfl
  rw [made] at can
  exact ⟨_, _, outcome, can, came⟩

theorem WaveOf.comesOfPlan_of_mem_ran {h : Host ω} {run : RunPlan} {v : WaveOf ω} {x : Ran}
    (mem : x ∈ v.ran h run) :
    ComesOfPlan h (waveView run v.frame v.state) x.task (some x.ended) := by
  obtain ⟨r, r_mem, rfl⟩ := List.mem_map.1 mem
  obtain ⟨⟨t, result⟩, zipped, found⟩ := List.mem_filterMap.1 r_mem
  obtain ⟨ended, rfl, rfl⟩ := Option.map_eq_some_iff.1 found
  exact (List.forall₂_iff_zip.1 (forall₂_planned_runWave _ _)).2 zipped

theorem passesVariables (h : Host ω) (request : RunRequest) (g : Graph) (begun : World ω) :
    PassesVariables h request g begun := by
  have threads : Threads h (request.plan g) request.environment.variables
      (runWaves h request g begun) (runGraph h request g begun).progress.variables :=
    threads_moveWaves g.moveBound [] g.topFrame (request.start begun)
  have planned (v : WaveOf ω) (_ : v ∈ runWaves h request g begun) (x : Ran)
      (mem : x ∈ v.ran h (request.plan g)) := WaveOf.comesOfPlan_of_mem_ran mem
  refine ⟨dispatchedWaves_runEvents h request g begun, executions_runEvents h request g begun,
    fun before v after split w t => threads.variables_eq split, planned, fun x mem => ?_, ?_⟩
  · rw [executions_runEvents] at mem
    obtain ⟨v, v_mem, x_mem⟩ := List.mem_flatMap.1 mem
    exact (planned v v_mem x x_mem).canComeTo.binds
  · rw [executions_runEvents]
    exact threads.last_eq

/-- A command that writes what it prints, a node beside it and one behind it that show the
variable. -/
def spokenToken : Workflow where
  nodes := [
    { id := "say"
      config := .command {
        command := "cat token"
        binding := some { name := "CREATE_NEW", newName := some " TOKEN " } } },
    { id := "peer", config := .format { template := "\x7b\x7b$TOKEN\x7d\x7d" } },
    { id := "after", config := .format { template := "\x7b\x7b$TOKEN\x7d\x7d" } }]
  edges := [{ source := "say", target := "after" }]

/-- Services whose commands print a token. -/
def Services.speaking : Services :=
  { Services.unavailable with treat := fun _ =>
      { reply := .exec { stdout := "s3cr3t\n", stderr := "", exitCode := some 0 } } }

theorem Plane.ofGraph_spokenToken :
    ofGraph (Graph.ofWorkflow spokenToken) = ⟨Graph.ofWorkflow spokenToken, []⟩ := by
  have regions : (Graph.ofWorkflow spokenToken).regions = [] := by cbv
  rw [ofGraph, regions]

end Flowline
