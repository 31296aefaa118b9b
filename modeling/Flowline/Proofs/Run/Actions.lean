import Flowline.Proofs.Run.History

/-!
# What a run does to the world

A run changes the world by a few actions only: a node begins, asks for a service, ends; a service
answers; time passes; an execution is settled; the end of a region is reported.  Whatever these
actions do, a sequence of them does (`Host.Actions`), and a run is such a sequence
(`Host.Actions.runGraph`).
-/

namespace Flowline

variable {ω : Type}

/-- Whatever happens, the relation holds between the world before and after it. -/
structure Host.Actions (h : Host ω) (R : World ω → World ω → Prop) : Prop where
  refl : ∀ w, R w w
  trans : ∀ {w₁ w₂ w₃}, R w₁ w₂ → R w₂ w₃ → R w₁ w₃
  begins : ∀ w t, w.isCancelled = false → R w (w.begin_ h t)
  stores : ∀ w store, R w (w.modifyEngine fun e => { e with store })
  calls : ∀ w call, R w (h.observe (.called call) w)
  ends : ∀ w t begun outcome, R w (w.end_ h t begun outcome).2
  answers : ∀ w treatment, R w (w.answer h treatment)
  waits : ∀ w time, R w (h.elapse time w)
  settles : ∀ w t iteration x durationMs bindings,
    R w (w.reportExecution h t iteration x durationMs bindings)
  amends : ∀ (s : Ongoing ω) iterator data, R s.world (reportRegion h s iterator data).world

namespace Host.Actions

variable {h : Host ω} {R : World ω → World ω → Prop} (acts : h.Actions R)
include acts

/-! ## Waves -/

theorem finish (w : World ω) (j : Waiting) : R w (w.finish h j).2 := by
  unfold World.finish
  dsimp only
  split
  · exact acts.trans (acts.answers w _) (acts.ends _ _ _ _)
  · exact acts.ends w _ _ _

theorem start (w : World ω) (view : WaveView) (t : Task) : R w (w.start h view t).2 := by
  unfold World.start
  split
  · exact acts.refl w
  · next goes_on =>
      have begun (store : NodeStore) :
          R w ((w.begin_ h t).modifyEngine fun e => { e with store }) :=
        acts.trans (acts.begins w t (by simpa using goes_on)) (acts.stores _ store)
      dsimp only
      split
      · exact acts.trans (begun _) (acts.ends _ _ _ _)
      · split
        · exact acts.trans (acts.trans (begun _) (acts.calls _ _)) (acts.finish _ _)
        · exact acts.trans (begun _) (acts.calls _ _)

theorem startAll (w : World ω) (view : WaveView) (tasks : List Task) :
    R w (w.startAll h view tasks).2 := by
  induction tasks generalizing w with
  | nil => exact acts.refl w
  | cons t rest ih => exact acts.trans (acts.start w view t) (ih _)

theorem finishAll (w : World ω) (jobs : List (Nat × Waiting)) : R w (w.finishAll h jobs).2 := by
  induction jobs generalizing w with
  | nil => exact acts.refl w
  | cons job rest ih =>
      have waited := acts.trans (acts.waits w job.2.due) (acts.finish _ job.2)
      exact acts.trans waited (ih _)

theorem runWave (w : World ω) (view : WaveView) (tasks : List Task) :
    R w (runWave h view w tasks).2 :=
  acts.trans (acts.startAll w view tasks) (acts.finishAll _ _)

theorem settleRan (iteration : Option (String × Nat)) (s : Ongoing ω)
    (ran : List (Task × Ended)) : R s.world (s.settleRan h iteration ran).world := by
  induction ran generalizing s with
  | nil => exact acts.refl s.world
  | cons r rest ih =>
      have first : R s.world (s.settle h iteration r.1 r.2).world := acts.settles _ _ _ _ _ _
      exact acts.trans first (ih (s.settle h iteration r.1 r.2))

theorem wave (run : RunPlan) (f : Frame) (s : Ongoing ω) (ids : List String) :
    R s.world (wave h run f s ids).2.world := by
  have ran := acts.runWave s.world (waveView run f s) (f.tasks run.plane ids)
  rw [wave_eq]
  exact acts.trans ran (acts.settleRan f.iteration { s with world := _ } _)

/-! ## Frames -/

theorem iterations (run : RunPlan) {runChild : Frame → Ongoing ω → Frame × Ongoing ω}
    (child : ∀ f s, R s.world (runChild f s).2.world) (around : Frame) (iterator : String)
    (number : Nat) (payloads : List Json) (s : Ongoing ω) :
    R s.world (iterations run runChild around iterator number payloads s).2.world := by
  induction payloads generalizing number s with
  | nil => exact acts.refl s.world
  | cons payload rest ih =>
      unfold Flowline.iterations
      split
      · exact acts.refl s.world
      · exact acts.trans (child _ s) (ih _ _)

theorem runMoves (run : RunPlan) (moves : Nat) (f : Frame) (s : Ongoing ω) :
    R s.world (runMoves h run moves f s).2.world := by
  induction moves generalizing f s with
  | zero => exact acts.refl s.world
  | succ moves ih =>
      unfold Flowline.runMoves
      split
      · exact acts.refl s.world
      · -- what is skipped leaves the world as it is
        have same : (skipUnreached run f s).2.world = s.world := rfl
        generalize skipUnreached run f s = skipped at same
        obtain ⟨after, s'⟩ := skipped
        rw [← same]
        dsimp only
        split
        · exact acts.refl s'.world
        · next r _ =>
            have inner := acts.iterations run ih (after.takeRegion r.iterator) r.iterator 0
              r.payloads s'
            exact acts.trans (acts.trans inner (acts.amends _ _ _)) (ih _ _)
        · next ids _ => exact acts.trans (acts.wave run after s' ids) (ih _ _)

/-- A run of a graph is a sequence of actions. -/
theorem runGraph (request : RunRequest) (g : Graph) (w : World ω) :
    R w (runGraph h request g w).world :=
  acts.runMoves (request.plan g) g.moveBound g.topFrame (request.start w)

end Host.Actions

end Flowline
