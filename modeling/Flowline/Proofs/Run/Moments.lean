import Flowline.Proofs.Run.History

/-!
# Moments of a run

`runMoments` lists the moments at which a frame of a run is about to move or has come to its end,
with the history up to there.  Like `runEvents` it calls the functions of the run itself.

A `RunInvariant` says what each step of a run keeps: the steps of a frame, and those of a region
that is under way.  `RunInvariant.moves` is the one induction that makes it hold at every moment
(`RunInvariant.run` for a whole run), also of a run that is cancelled or told to stop.
-/

namespace Flowline

variable {ω : Type}

/-- A frame at some time, with the history up to then. -/
structure Moment (ω : Type) where
  past : List Event
  place : Place
  frame : Frame
  state : Ongoing ω

section

variable (h : Host ω) (run : RunPlan)

/-- The moments in the frames for the payloads of a region. -/
def iterationMoments (runChild : Frame → Ongoing ω → Frame × Ongoing ω)
    (childEvents : Place → Frame → Ongoing ω → List Event)
    (childMoments : List Event → Place → Frame → Ongoing ω → List (Moment ω)) (around : Frame)
    (iterator : String) (place : Place) :
    List Event → Nat → List Json → Ongoing ω → List (Moment ω)
  | _, _, [], _ => []
  | past, number, payload :: rest, s =>
    if s.stopped then []
    else
      let inner := (iterator, number) :: place
      let child := run.plane.iterationFrame around iterator number payload
      let entered := past ++ [⟨inner, .entered child⟩]
      childMoments entered inner child s ++
        iterationMoments runChild childEvents childMoments around iterator place
          (entered ++ childEvents inner child s) (number + 1) rest (runChild child s).2

/-- The moments of a frame in at most so many moves: one before each move, when what must be
skipped has been skipped, and one at which the run was stopped. -/
def moveMoments : Nat → List Event → Place → Frame → Ongoing ω → List (Moment ω)
  | 0, past, place, f, s => [⟨past, place, f, s⟩]
  | moves + 1, past, place, f, s =>
    if s.stopped then [⟨past, place, f, s⟩]
    else
      let (after, s) := skipUnreached run f s
      let past := past ++ [⟨place, .skipped (f.skippedNext run.plane)⟩]
      ⟨past, place, after, s⟩ ::
        match after.move run.plane with
        | .stop => []
        | .region r =>
          let around := after.takeRegion r.iterator
          let opened := past ++ [⟨place, .opened r (after.regionReady run.plane r.iterator)⟩]
          let inner := iterationEvents run (runMoves h run moves) (moveEvents h run moves) around
            r.iterator place 0 r.payloads s
          let (next, after_region) := runRegion h run (runMoves h run moves) after s r
          iterationMoments run (runMoves h run moves) (moveEvents h run moves) (moveMoments moves)
              around r.iterator place opened 0 r.payloads s ++
            moveMoments moves (opened ++ inner ++ [⟨place, .closed r⟩]) place next after_region
        | .wave ids =>
          let (next, after_wave) := wave h run after s ids
          moveMoments moves (past ++ waveEvents h run place after s ids) place next after_wave

end

/-- The moments of a run. -/
def runMoments (h : Host ω) (request : RunRequest) (g : Graph) (w : World ω) : List (Moment ω) :=
  moveMoments h (request.plan g) g.moveBound [⟨[], .entered g.topFrame⟩] [] g.topFrame
    (request.start w)

/-! ## Invariants -/

/-- What each step of a run keeps: `Inv` of a frame, and `During` of a region that is under way,
with the outputs of its iterations so far. -/
structure RunInvariant (h : Host ω) (request : RunRequest) (g : Graph)
    (Inv : List Event → Place → Frame → Ongoing ω → Prop)
    (During : List Event → Place → Frame → PendingRegion → List (Entries Json) → Ongoing ω →
      Prop) : Prop where
  skips : ∀ {past place f f₁ s s₁}, Inv past place f s → Begun request g place f s f₁ s₁ →
    Inv (past ++ [⟨place, .skipped (f.skippedNext (Plane.ofGraph g))⟩]) place f₁ s₁
  ends : ∀ {past place f f₁ s s₁}, Inv past place f₁ s₁ → Begun request g place f s f₁ s₁ →
    (∀ u, ¬ f₁.Unfinished u) → Inv (past ++ [⟨place, .finished f₁⟩]) place f₁ s₁
  waves : ∀ {past place f f₁ f₂ s s₁ s₂ ids ran}, Inv past place f₁ s₁ →
    Begun request g place f s f₁ s₁ → f₁.readyMembers (Plane.ofGraph g) = ids →
    waveRan h (request.plan g) f₁ s₁ ids = ran → wave h (request.plan g) f₁ s₁ ids = (f₂, s₂) →
    Inv (past ++ ⟨place, .dispatched (f₁.tasks (Plane.ofGraph g) ids)⟩ ::
      ran.map fun r => ⟨place, .settled r.1 r.2⟩) place f₂ s₂
  opens : ∀ {past place f f₁ s s₁ r}, Inv past place f₁ s₁ → Begun request g place f s f₁ s₁ →
    r ∈ f₁.pending → f₁.regionReady (Plane.ofGraph g) r.iterator = true →
    During (past ++ [⟨place, .opened r true⟩]) place f₁ r [] s₁
  enters : ∀ {past place f₁ r outputs s}, During past place f₁ r outputs s → s.stopped = false →
    outputs.length < r.payloads.length →
    Inv (past ++ [⟨(r.iterator, outputs.length) :: place,
      .entered (g.childFrame f₁ r outputs.length)⟩]) ((r.iterator, outputs.length) :: place)
      (g.childFrame f₁ r outputs.length) s
  leaves : ∀ {past place f₁ r outputs s part f' s'}, During past place f₁ r outputs s →
    outputs.length < r.payloads.length →
    FrameRun h request g ((r.iterator, outputs.length) :: place)
      (g.childFrame f₁ r outputs.length) s part f' s' →
    Inv (past ++ ⟨(r.iterator, outputs.length) :: place,
      .entered (g.childFrame f₁ r outputs.length)⟩ :: part)
      ((r.iterator, outputs.length) :: place) f' s' →
    During (past ++ ⟨(r.iterator, outputs.length) :: place,
      .entered (g.childFrame f₁ r outputs.length)⟩ :: part) place f₁ r (outputs ++ [f'.outputs]) s'
  closes : ∀ {past place f₁ r outputs s}, During past place f₁ r outputs s →
    (s.stopped = false → outputs.length = r.payloads.length) →
    Inv (past ++ [⟨place, .closed r⟩]) place ((f₁.takeRegion r.iterator).settleRegion r outputs)
      (reportRegion h s r.iterator (aggregate r.data outputs))

namespace RunInvariant

variable {h : Host ω} {request : RunRequest} {g : Graph}
  {Inv : List Event → Place → Frame → Ongoing ω → Prop}
  {During : List Event → Place → Frame → PendingRegion → List (Entries Json) → Ongoing ω → Prop}

/-- The iterations of a region keep the invariant if each frame does. -/
theorem iterates (inv : RunInvariant h request g Inv During) (alone : h.LeavesRunsAlone)
    {place : Place} {f₁ : Frame} {r : PendingRegion}
    {runChild : Frame → Ongoing ω → Frame × Ongoing ω}
    {childEvents : Place → Frame → Ongoing ω → List Event}
    {childMoments : List Event → Place → Frame → Ongoing ω → List (Moment ω)}
    (runs : ∀ k s, s.world.engine.slotHeld = true →
      FrameRun h request g ((r.iterator, k) :: place) (g.childFrame f₁ r k) s
        (childEvents ((r.iterator, k) :: place) (g.childFrame f₁ r k) s)
        (runChild (g.childFrame f₁ r k) s).1 (runChild (g.childFrame f₁ r k) s).2)
    (keeps : ∀ past k s, s.world.engine.slotHeld = true →
      Inv past ((r.iterator, k) :: place) (g.childFrame f₁ r k) s →
      (∀ m ∈ childMoments past ((r.iterator, k) :: place) (g.childFrame f₁ r k) s,
        Inv m.past m.place m.frame m.state) ∧
      Inv (past ++ childEvents ((r.iterator, k) :: place) (g.childFrame f₁ r k) s)
        ((r.iterator, k) :: place) (runChild (g.childFrame f₁ r k) s).1
        (runChild (g.childFrame f₁ r k) s).2)
    {outputs : List (Entries Json)} {rest : List Json} {past : List Event} {s : Ongoing ω}
    (within : outputs.length ≤ r.payloads.length) (left : r.payloads.drop outputs.length = rest)
    (held : s.world.engine.slotHeld = true) (during : During past place f₁ r outputs s) :
    let around := f₁.takeRegion r.iterator
    let ended := iterations (request.plan g) runChild around r.iterator outputs.length rest s
    (∀ m ∈ iterationMoments (request.plan g) runChild childEvents childMoments around r.iterator
        place past outputs.length rest s, Inv m.past m.place m.frame m.state) ∧
      During (past ++ iterationEvents (request.plan g) runChild childEvents around r.iterator place
        outputs.length rest s) place f₁ r (outputs ++ ended.1) ended.2 ∧
      (ended.2.stopped = false → (outputs ++ ended.1).length = r.payloads.length) ∧
      ended.2.world.engine.slotHeld = true := by
  induction rest generalizing outputs past s with
  | nil =>
      have all : outputs.length = r.payloads.length :=
        Nat.le_antisymm within (List.drop_eq_nil_iff.1 left)
      simpa [iterationMoments, iterationEvents, iterations, all, held] using during
  | cons payload rest ih =>
      by_cases stopped : s.stopped = true
      · simpa [iterationMoments, iterationEvents, iterations, stopped, held] using during
      · have goes_on : s.stopped = false := by simpa using stopped
        have more : outputs.length < r.payloads.length := by
          rw [← List.drop_eq_nil_iff.not.trans Nat.not_le, left]
          exact List.cons_ne_nil _ _
        have found : r.payloads.getD outputs.length .null = payload := by
          have first := congrArg List.head? left
          rw [List.head?_drop] at first
          rw [List.getD_eq_getElem?_getD, first]
          rfl
        have child_eq : (request.plan g).plane.iterationFrame (f₁.takeRegion r.iterator) r.iterator
            outputs.length payload = g.childFrame f₁ r outputs.length := by
          rw [← found]
          rfl
        obtain ⟨here, ended⟩ := keeps _ outputs.length s held (inv.enters during goes_on more)
        have run := runs outputs.length s held
        rw [List.append_assoc] at ended
        have next := inv.leaves during more run ended
        have length_next :
            (outputs ++ [(runChild (g.childFrame f₁ r outputs.length) s).1.outputs]).length =
              outputs.length + 1 := List.length_append
        have later := ih (length_next ▸ more) (by rw [length_next, ← List.drop_drop, left]; rfl)
          (run.held alone) next
        rw [length_next] at later
        obtain ⟨moments, during', all, held'⟩ := later
        unfold iterationMoments iterationEvents iterations
        simp only [if_neg stopped, child_eq]
        refine ⟨fun m mem => ?_, ?_, fun going => ?_, held'⟩
        · rcases List.mem_append.1 mem with inside | after
          · exact here m inside
          · refine moments m ?_
            simpa using after
        · simpa using during'
        · simpa using all going

/-- An invariant that holds when a frame begins holds at each of its moments, and when it is
left. -/
theorem moves (inv : RunInvariant h request g Inv During) (wf : g.WellFormed) (acyclic : g.Acyclic)
    (alone : h.LeavesRunsAlone) (moves : Nat) (past : List Event) (place : Place) (f : Frame)
    (s : Ongoing ω) (held : s.world.engine.slotHeld = true)
    (ready : s.stopped = false → f.Sound g place ∧ f.budget g place < moves)
    (start : Inv past place f s) :
    (∀ m ∈ moveMoments h (request.plan g) moves past place f s,
      Inv m.past m.place m.frame m.state) ∧
      Inv (past ++ moveEvents h (request.plan g) moves place f s) place
        (runMoves h (request.plan g) moves f s).1 (runMoves h (request.plan g) moves f s).2 := by
  induction moves generalizing past place f s with
  | zero => simpa [moveMoments, moveEvents, runMoves] using start
  | succ moves ih =>
      have plane_eq : (request.plan g).plane = Plane.ofGraph g := rfl
      unfold moveMoments moveEvents runMoves
      rw [plane_eq]
      by_cases stopped : s.stopped = true
      · simpa [stopped] using start
      · simp only [if_neg stopped]
        have goes_on : s.stopped = false := by simpa using stopped
        obtain ⟨sound, bound⟩ := ready goes_on
        cases skipped : skipUnreached (request.plan g) f s with
        | mk f₁ s₁ =>
            have begun : Begun request g place f s f₁ s₁ := ⟨held, goes_on, sound, skipped⟩
            have sound₁ := begun.sound₁ wf
            have now := inv.skips start begun
            have budget₁ : f₁.budget g place ≤ f.budget g place := by
              rw [begun.frame_eq]
              exact sound.budget_skipAll_le
            dsimp only
            rcases sound₁.move_cases wf acyclic begun.no_skip with
              ⟨stops, done⟩ | ⟨r, pending, runs, region_ready⟩ | ⟨some_ready, waves⟩
            · rw [show f₁.move (Plane.ofGraph g) = _ from stops]
              refine ⟨?_, ?_⟩
              · simpa using now
              · simpa using inv.ends now begun done
            · rw [show f₁.move (Plane.ofGraph g) = _ from runs]
              have child (k : Nat) :=
                sound₁.budget_iterationFrame_lt wf acyclic pending (f₁.takeRegion r.iterator) k
                  (r.payloads.getD k .null)
              have child_ready (k : Nat) (s : Ongoing ω) (_ : s.stopped = false) :
                  (g.childFrame f₁ r k).Sound g ((r.iterator, k) :: place) ∧
                    (g.childFrame f₁ r k).budget g ((r.iterator, k) :: place) < moves :=
                ⟨.iterationFrame wf acyclic _ _ _ _, Nat.lt_of_lt_of_le (child k) (by omega)⟩
              have opened := inv.opens now begun pending region_ready
              obtain ⟨inside, during, all, held'⟩ := inv.iterates alone
                (fun k s held => frameRun_moveEvents wf acyclic alone moves _ _ s held
                  (child_ready k s))
                (fun past k s held start => ih past _ _ s held (child_ready k s) start)
                (Nat.zero_le _) rfl begun.held₁ opened
              rw [List.nil_append] at during all
              obtain ⟨later, ended⟩ := ih _ place _ _
                ((advance_reportRegion alone _ _ _).held held')
                (fun _ => ⟨sound₁.settleRegion, Nat.lt_of_lt_of_le
                  (Frame.budget_settleRegion_lt pending) (by omega)⟩)
                (inv.closes during all)
              dsimp only
              rw [region_ready]
              refine ⟨?_, ?_⟩
              · intro m mem
                rcases List.mem_cons.1 mem with rfl | mem
                · exact now
                · rcases List.mem_append.1 mem with mem | mem
                  · exact inside m mem
                  · exact later m mem
              · simpa [runRegion] using ended
            · rw [show f₁.move (Plane.ofGraph g) = _ from waves]
              dsimp only
              cases next : wave h (request.plan g) f₁ s₁ (f₁.readyMembers (Plane.ofGraph g)) with
              | mk f₂ s₂ =>
                  have waved := begun.waved wf alone rfl rfl next
                  have less := waved.budget_lt sound₁ some_ready
                  obtain ⟨later, ended⟩ := ih _ place f₂ s₂ (begun.held_wave wf alone next)
                    (fun goes_on => ⟨waved.sound wf sound₁ goes_on, by omega⟩)
                    (inv.waves now begun rfl rfl next)
                  refine ⟨?_, ?_⟩
                  · intro m mem
                    rcases List.mem_cons.1 mem with rfl | mem
                    · exact now
                    · exact later m (by simpa [waveEvents, plane_eq] using mem)
                  · simpa [waveEvents, plane_eq] using ended

/-- An invariant that holds when a run begins holds at each of its moments, and at its end. -/
theorem run (inv : RunInvariant h request g Inv During) (wf : g.WellFormed) (acyclic : g.Acyclic)
    (alone : h.LeavesRunsAlone) {w : World ω} (held : w.engine.slotHeld = true)
    (start : Inv [⟨[], .entered g.topFrame⟩] [] g.topFrame (request.start w)) :
    (∀ m ∈ runMoments h request g w, Inv m.past m.place m.frame m.state) ∧
      ∃ f, Inv (runEvents h request g w) [] f (runGraph h request g w) := by
  obtain ⟨moments, ended⟩ := inv.moves wf acyclic alone g.moveBound _ [] g.topFrame
    (request.start w) held
    (fun _ => ⟨Frame.Sound.frame_ids wf acyclic, budget_topFrame_lt g⟩) start
  exact ⟨moments, _, ended⟩

end RunInvariant

end Flowline
