import Flowline.Proofs.Run.History

/-!
# Runs that are watched

A run does not look at the rest of the program.  So if one host does what another does and only
keeps more of it (`Host.Shadows`), their runs are the same but for what is kept
(`Host.Shadows.executeReserved`).  In particular any host can be made to keep a trace of all its
contacts with a run (`Host.traced`), and nothing else changes (`executeReserved_traced`).
-/

namespace Flowline

variable {ω ω' : Type}

/-- The same world with another rest of the program. -/
def World.map (π : ω → ω') (w : World ω) : World ω' := ⟨w.engine, w.now, w.serial, π w.outside⟩

/-- The same run in another rest of the program. -/
def Ongoing.map (π : ω → ω') (s : Ongoing ω) : Ongoing ω' := ⟨s.world.map π, s.progress⟩

/-- One host does what another does, seen through a function. -/
structure Host.Shadows (h : Host ω) (h' : Host ω') (π : ω → ω') : Prop where
  services : h'.services = h.services
  observe : ∀ event w, h'.observe event (w.map π) = (h.observe event w).map π
  elapse : ∀ time w, h'.elapse time (w.map π) = (h.elapse time w).map π

section

variable {π : ω → ω'}

namespace World

theorem map_modifyEngine (w : World ω) (f : Engine → Engine) :
    (w.map π).modifyEngine f = (w.modifyEngine f).map π := rfl

theorem map_modifyState (w : World ω) (f : ExecutionState → ExecutionState) :
    (w.map π).modifyState f = (w.modifyState f).map π := rfl

theorem map_engine (w : World ω) : (w.map π).engine = w.engine := rfl

theorem map_now (w : World ω) : (w.map π).now = w.now := rfl

theorem isCancelled_map (w : World ω) : (w.map π).isCancelled = w.isCancelled := rfl

end World

theorem Ongoing.stopped_map (s : Ongoing ω) : (s.map π).stopped = s.stopped := rfl

namespace Host.Shadows

variable {h : Host ω} {h' : Host ω'} (shadows : h.Shadows h' π)
include shadows

/-! ## Waves -/

theorem begin_ (w : World ω) (t : Task) : (w.map π).begin_ h' t = (w.begin_ h t).map π := by
  unfold World.begin_
  simp only [World.map_modifyState, World.map_engine, shadows.observe]

theorem end_ (w : World ω) (t : Task) (begun : Nat) (outcome : Outcome) :
    (w.map π).end_ h' t begun outcome =
      ((w.end_ h t begun outcome).1, (w.end_ h t begun outcome).2.map π) := by
  unfold World.end_
  simp only [World.map_modifyState, World.map_engine, World.isCancelled_map, shadows.observe]
  split <;> rfl

theorem answer (w : World ω) (treatment : Treatment) :
    (w.map π).answer h' treatment = (w.answer h treatment).map π := by
  have asked : h'.observe (.cancelled w.engine.cancel.1)
      { w.map π with engine := w.engine.cancel.2 } =
        (h.observe (.cancelled w.engine.cancel.1) { w with engine := w.engine.cancel.2 }).map π :=
    shadows.observe _ { w with engine := w.engine.cancel.2 }
  unfold World.answer
  simp only [World.map_engine, asked]
  cases treatment.cancels <;> cases treatment.probes <;>
    simp [World.map_engine, shadows.observe]

theorem finish (w : World ω) (j : Waiting) :
    (w.map π).finish h' j = ((w.finish h j).1, (w.finish h j).2.map π) := by
  unfold World.finish
  cases j.inTime <;> simp [shadows.answer, shadows.end_]

theorem context (w : World ω) (view : WaveView) (t : Task) :
    (w.map π).context h' view t = w.context h view t := by
  unfold World.context
  rw [shadows.services]
  rfl

theorem start (w : World ω) (view : WaveView) (t : Task) :
    (w.map π).start h' view t = ((w.start h view t).1, (w.start h view t).2.map π) := by
  unfold World.start
  simp only [World.isCancelled_map, shadows.begin_, shadows.context, World.map_engine,
    World.map_modifyEngine, shadows.observe, shadows.end_, shadows.finish, shadows.services,
    World.map_now]
  split
  · rfl
  · split
    · rfl
    · split <;> rfl

theorem startAll (w : World ω) (view : WaveView) (tasks : List Task) :
    (w.map π).startAll h' view tasks =
      ((w.startAll h view tasks).1, (w.startAll h view tasks).2.map π) := by
  induction tasks generalizing w with
  | nil => rfl
  | cons t rest ih =>
      unfold World.startAll
      simp only [shadows.start, ih]

theorem finishAll (w : World ω) (jobs : List (Nat × Waiting)) :
    (w.map π).finishAll h' jobs =
      ((w.finishAll h jobs).1, (w.finishAll h jobs).2.map π) := by
  induction jobs generalizing w with
  | nil => rfl
  | cons job rest ih =>
      unfold World.finishAll
      simp only [shadows.elapse, shadows.finish, ih]

theorem runWave (view : WaveView) (w : World ω) (tasks : List Task) :
    runWave h' view (w.map π) tasks =
      ((runWave h view w tasks).1, (runWave h view w tasks).2.map π) := by
  unfold Flowline.runWave
  simp only [shadows.startAll, shadows.finishAll]

/-! ## Settling -/

theorem reportOutput (w : World ω) (id : String) (data : Json) :
    (w.map π).reportOutput h' id data = (w.reportOutput h id data).map π := by
  unfold World.reportOutput
  simp only [World.map_modifyState, shadows.observe]

theorem reportLog (w : World ω) (t : Task) (iteration : Option (String × Nat)) (x : Execution)
    (durationMs : Nat) :
    (w.map π).reportLog h' t iteration x durationMs =
      (w.reportLog h t iteration x durationMs).map π := by
  let w' := w.freshId.2
  let entry : LogEntry :=
    { id := w.freshId.1, timestamp := w'.instant, kind := t.node.kind, name := t.node.id
      sourceIds := t.sources, sourceData := t.inputValue, data := x.data, error := x.error
      iteration := iteration.map (·.2), iteratorId := iteration.map (·.1), durationMs }
  exact shadows.observe (.log entry) (w'.modifyState (·.appendLog entry))

theorem reportExecution (w : World ω) (t : Task) (iteration : Option (String × Nat))
    (x : Execution) (durationMs : Nat) (bindings : Entries String) :
    (w.map π).reportExecution h' t iteration x durationMs bindings =
      (w.reportExecution h t iteration x durationMs bindings).map π := by
  have state (w : World ω) : (w.map π).stateAfter t.node x = w.stateAfter t.node x := rfl
  unfold World.reportExecution
  cases x.continues t.node <;> cases x.variables.isEmpty <;>
    simp [shadows.reportOutput, shadows.observe, shadows.reportLog, state]

theorem settleRan (iteration : Option (String × Nat)) (s : Ongoing ω) (ran : List (Task × Ended)) :
    (s.map π).settleRan h' iteration ran = (s.settleRan h iteration ran).map π := by
  induction ran generalizing s with
  | nil => rfl
  | cons r rest ih =>
      have first : (s.map π).settle h' iteration r.1 r.2 = (s.settle h iteration r.1 r.2).map π :=
        congrArg (fun w => Ongoing.mk w (s.progress.record r.1.node r.2.execution))
          (shadows.reportExecution s.world _ _ _ _ _)
      exact (congrArg (·.settleRan h' iteration rest) first).trans (ih _)

theorem wave (run : RunPlan) (f : Frame) (s : Ongoing ω) (ids : List String) :
    wave h' run f (s.map π) ids = ((wave h run f s ids).1, (wave h run f s ids).2.map π) := by
  have ran := shadows.runWave (waveView run f s) s.world (f.tasks run.plane ids)
  have same : waveRan h' run f (s.map π) ids = waveRan h run f s ids := by
    unfold waveRan
    exact congrArg (fun r => ((f.tasks run.plane ids).zip r.1).filterMap _) ran
  rw [wave_eq, wave_eq, same]
  refine Prod.ext rfl ?_
  have world := congrArg Prod.snd ran
  refine Eq.trans ?_ (shadows.settleRan f.iteration { s with world := _ } _)
  exact congrArg (fun w => Ongoing.settleRan h' f.iteration ⟨w, s.progress⟩ _) world

/-! ## Frames -/

omit shadows in
theorem iterations (run : RunPlan) {runChild : Frame → Ongoing ω → Frame × Ongoing ω}
    {runChild' : Frame → Ongoing ω' → Frame × Ongoing ω'}
    (child : ∀ f s, runChild' f (s.map π) = ((runChild f s).1, (runChild f s).2.map π))
    (around : Frame) (iterator : String) (number : Nat) (payloads : List Json) (s : Ongoing ω) :
    iterations run runChild' around iterator number payloads (s.map π) =
      ((iterations run runChild around iterator number payloads s).1,
        (iterations run runChild around iterator number payloads s).2.map π) := by
  induction payloads generalizing number s with
  | nil => rfl
  | cons payload rest ih =>
      unfold Flowline.iterations
      simp only [Ongoing.stopped_map, child, ih]
      split <;> rfl

theorem reportRegion (s : Ongoing ω) (iterator : String) (data : Json) :
    reportRegion h' (s.map π) iterator data = (reportRegion h s iterator data).map π := by
  have shown (w : World ω) : (w.map π).instant = w.instant := rfl
  unfold Flowline.reportRegion Ongoing.map
  simp only [shadows.reportOutput, shadows.observe, shown]

theorem runMoves (run : RunPlan) (moves : Nat) (f : Frame) (s : Ongoing ω) :
    runMoves h' run moves f (s.map π) =
      ((runMoves h run moves f s).1, (runMoves h run moves f s).2.map π) := by
  induction moves generalizing f s with
  | zero => rfl
  | succ moves ih =>
      have skipped : skipUnreached run f (s.map π) =
          ((skipUnreached run f s).1, (skipUnreached run f s).2.map π) := rfl
      unfold Flowline.runMoves
      simp only [Ongoing.stopped_map, skipped]
      split
      · rfl
      · generalize skipUnreached run f s = after
        cases move : after.1.move run.plane with
        | stop => rfl
        | region r =>
            have inner := iterations run ih (after.1.takeRegion r.iterator) r.iterator 0
              r.payloads after.2
            unfold runRegion
            simp only [inner, shadows.reportRegion, ih]
        | wave ids => simp only [shadows.wave, ih]

/-! ## Runs -/

theorem runGraph (request : RunRequest) (g : Graph) (w : World ω) :
    runGraph h' request g (w.map π) = (runGraph h request g w).map π :=
  congrArg Prod.snd (shadows.runMoves (request.plan g) g.moveBound g.topFrame (request.start w))

theorem changeStatus (w : World ω) (status : RunStatus) :
    (w.map π).changeStatus h' status = (w.changeStatus h status).map π :=
  shadows.observe _ (w.modifyState (·.setStatus status w.instant))

theorem beginRun (w : World ω) (id : Uuid) :
    (w.map π).beginRun h' id = (w.beginRun h id).map π :=
  shadows.observe _ ((w.modifyEngine fun e =>
    { e with cancelRequested := false }).modifyState (·.beginRun id w.instant))

/-- A run is the same in both hosts. -/
theorem executeReserved (request : RunRequest) (w : World ω) :
    executeReserved h' request (w.map π) =
      ((executeReserved h request w).1, (executeReserved h request w).2.map π) := by
  have fresh : (w.map π).freshId = (w.freshId.1, w.freshId.2.map π) := rfl
  unfold Flowline.executeReserved
  dsimp only
  cases (Graph.ofWorkflow request.workflow).cycleNode? with
  | some id => rfl
  | none =>
      simp only [fresh, shadows.beginRun, shadows.runGraph, Ongoing.map, World.isCancelled_map,
        shadows.changeStatus, World.map_modifyEngine]
      rfl

end Host.Shadows

end

/-! ## Traces -/

/-- What passes between a run and the rest of the program: a report, or time until the run goes
on. -/
inductive Passage where
  | report (event : RunEvent)
  | wait (time : Nat)

/-- A contact of a run with the rest of the program, and the world before and after it. -/
structure Contact (ω : Type) where
  what : Passage
  before : World ω
  after : World ω

namespace World

/-- Let the rest of the program act, and keep a trace of it. -/
def contact (w : World (ω × List (Contact ω))) (what : Passage) (act : World ω → World ω) :
    World (ω × List (Contact ω)) :=
  let before := w.map Prod.fst
  let after := act before
  after.map fun outside => (outside, w.outside.2 ++ [⟨what, before, after⟩])

/-- The world with an empty trace. -/
def untraced (w : World ω) : World (ω × List (Contact ω)) := w.map fun outside => (outside, [])

/-- The contacts so far. -/
def trace (w : World (ω × List (Contact ω))) : List (Contact ω) := w.outside.2

end World

/-- The host, keeping a trace. -/
def Host.traced (h : Host ω) : Host (ω × List (Contact ω)) where
  services := h.services
  observe event w := w.contact (.report event) (h.observe event)
  elapse time w := w.contact (.wait time) (h.elapse time)

theorem Host.shadows_traced (h : Host ω) : h.traced.Shadows h Prod.fst :=
  ⟨rfl, fun _ _ => rfl, fun _ _ => rfl⟩

/-- Keeping a trace changes nothing in a run. -/
theorem executeReserved_traced (h : Host ω) (request : RunRequest) (w : World ω) :
    executeReserved h request w =
      ((executeReserved h.traced request w.untraced).1,
        (executeReserved h.traced request w.untraced).2.map Prod.fst) :=
  h.shadows_traced.executeReserved request w.untraced

/-- The host that keeps a trace leaves runs alone if the host does. -/
theorem Host.LeavesRunsAlone.traced {h : Host ω} (alone : h.LeavesRunsAlone) :
    h.traced.LeavesRunsAlone where
  observe event w :=
    have advance := alone.observe event (w.map Prod.fst)
    ⟨advance.held, advance.cancelled, advance.log⟩
  elapse time w :=
    have advance := alone.elapse time (w.map Prod.fst)
    ⟨advance.held, advance.cancelled, advance.log⟩

end Flowline
