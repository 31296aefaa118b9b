import Flowline.Proofs.Graph.Numbering
import Flowline.Proofs.Run.Accepted
import Flowline.Proofs.Run.History

/-!
# Edges that lead nowhere do not show in a run

A frame keeps the numbers of edges, and does nothing with them but compare them.  So a run of a
graph whose edges have other numbers is the same run (`runGraph_renumber`), and what it does is the
same but for the numbers that frames keep (`runEvents_renumber`).  Edges that lead nowhere only
change numbers (`Graph.ofWorkflow_padded`), so they change nothing.

* `Frame.verdict_renumber`: what an edge tells about its target.
* `runMoves_renumber`: the induction over the moves of a frame.
* `padding_inert`: all of it together.
-/

namespace Flowline

variable {ω : Type}

/-- The plane with other numbers for its edges. -/
def Plane.renumber (φ : Nat → Nat) (p : Plane) : Plane := { p with graph := p.graph.renumber φ }

/-- The frame with other numbers for its edges. -/
def Frame.renumber (φ : Nat → Nat) (f : Frame) : Frame :=
  { f with seeded := f.seeded.map φ, edges := f.edges.map fun e => (φ e.1, e.2) }

/-- What all frames share, with other numbers for the edges. -/
def RunPlan.renumber (φ : Nat → Nat) (run : RunPlan) : RunPlan :=
  { run with plane := run.plane.renumber φ }

theorem Plane.ofGraph_renumber (φ : Nat → Nat) (g : Graph) :
    Plane.ofGraph (g.renumber φ) = (Plane.ofGraph g).renumber φ := by
  unfold ofGraph
  rw [Graph.regions_renumber]
  rfl

theorem RunRequest.plan_renumber (φ : Nat → Nat) (request : RunRequest) (g : Graph) :
    request.plan (g.renumber φ) = (request.plan g).renumber φ := by
  unfold plan
  rw [Plane.ofGraph_renumber]
  rfl

theorem Plane.frame_renumber (φ : Nat → Nat) (p : Plane) (candidates : List String)
    (seeded : List Nat) (scope : Entries Json) (iteration : Option (String × Nat)) :
    (p.renumber φ).frame candidates (seeded.map φ) scope iteration =
      (p.frame candidates seeded scope iteration).renumber φ := rfl

theorem topFrame_renumber (φ : Nat → Nat) (g : Graph) :
    (g.renumber φ).topFrame = g.topFrame.renumber φ := by
  unfold Graph.topFrame
  rw [Plane.ofGraph_renumber]
  rfl

theorem Plane.iterationFrame_renumber (φ : Nat → Nat) (p : Plane) (around : Frame)
    (iterator : String) (number : Nat) (payload : Json) :
    (p.renumber φ).iterationFrame (around.renumber φ) iterator number payload =
      (p.iterationFrame around iterator number payload).renumber φ := by
  unfold iterationFrame
  dsimp only
  rw [← frame_renumber]
  have seeded : (((p.renumber φ).graph.outgoing iterator).map (·.1)) =
      ((p.graph.outgoing iterator).map (·.1)).map φ := by
    simp [renumber]
  rw [seeded]
  rfl

/-! ## Frames -/

namespace Frame

variable {φ : Nat → Nat} (inj : φ.Injective)

theorem edgesWithin_renumber (φ : Nat → Nat) (p : Plane) (f : Frame) (id : String) :
    (p.renumber φ).edgesWithin (f.renumber φ) id = (p.edgesWithin f id).map φ := by
  unfold Plane.edgesWithin Plane.renumber
  rw [Graph.outgoing_renumber, List.filter_map, List.map_map, List.map_map]
  rfl

theorem takenEdges_renumber (φ : Nat → Nat) (g : Graph) (n : Node) (x : Execution) :
    (g.renumber φ).takenEdges n x = (g.takenEdges n x).map φ := by
  unfold Graph.takenEdges
  rw [Graph.outgoing_renumber]
  split
  · split
    · simp
    · simp
    · rfl
    · rw [Graph.selectBranch_renumber, List.map_map, List.map_map]
      rfl
  · rfl

include inj

theorem contains_renumber (numbers : List Nat) (number : Nat) :
    (numbers.map φ).contains (φ number) = numbers.contains number := by
  rw [Bool.eq_iff_iff, List.contains_iff_mem, List.contains_iff_mem, List.mem_map_of_injective inj]

theorem lookup_renumber (edges : List (Nat × EdgeState)) (number : Nat) :
    (edges.map fun e => (φ e.1, e.2)).lookup (φ number) = edges.lookup number := by
  induction edges with
  | nil => rfl
  | cons e rest ih =>
      have same : (φ number == φ e.1) = (number == e.1) := by
        rw [Bool.eq_iff_iff, beq_iff_eq, beq_iff_eq, inj.eq_iff]
      rw [List.map_cons, List.lookup_cons, List.lookup_cons, same, ih]

theorem verdict_renumber (f : Frame) (number : Nat) (e : Edge) :
    (f.renumber φ).verdict (φ number) e = f.verdict number e := by
  unfold verdict
  have seeded : (f.renumber φ).seeded.contains (φ number) = f.seeded.contains number :=
    contains_renumber inj _ _
  have state : (f.renumber φ).edges.lookup (φ number) = f.edges.lookup number :=
    lookup_renumber inj _ _
  rw [seeded, state]
  rfl

theorem readiness_renumber (p : Plane) (f : Frame) (id : String) :
    (f.renumber φ).readiness (p.renumber φ) id = f.readiness p id := by
  unfold readiness Plane.renumber
  rw [Graph.incoming_renumber, List.map_map]
  refine congrArg _ (List.map_congr_left fun e _ => ?_)
  exact verdict_renumber inj f e.1 e.2

omit inj in
theorem settleEdges_renumber (f : Frame) (edges : List Nat) {state state' : Nat → EdgeState}
    (same : ∀ number, state' (φ number) = state number) :
    (f.renumber φ).settleEdges (edges.map φ) state' = (f.settleEdges edges state).renumber φ := by
  unfold settleEdges renumber
  rw [List.map_map, List.map_append, List.map_map]
  simp only [Function.comp_def, same]

omit inj in
theorem skip_renumber (p : Plane) (f : Frame) (id : String) :
    (f.renumber φ).skip (p.renumber φ) id = (f.skip p id).renumber φ := by
  unfold skip
  rw [edgesWithin_renumber]
  exact settleEdges_renumber { f with settled := id :: f.settled } _ fun _ => rfl

theorem mustSkip_renumber (p : Plane) (f : Frame) :
    (f.renumber φ).mustSkip (p.renumber φ) = f.mustSkip p := by
  funext id
  unfold mustSkip
  rw [readiness_renumber inj]
  rfl

theorem skipAll_renumber (p : Plane) (f : Frame) :
    (f.renumber φ).skipAll (p.renumber φ) = (f.skipAll p).renumber φ := by
  fun_induction f.skipAll p with
  | case1 f none_found =>
      rw [skipAll]
      split
      · rfl
      · next id found =>
          rw [mustSkip_renumber inj] at found
          exact absurd (found.symm.trans none_found) (by simp)
  | case2 f id found _ ih =>
      rw [skipAll]
      split
      · next none_found =>
          rw [mustSkip_renumber inj] at none_found
          exact absurd (found.symm.trans none_found) (by simp)
      · next id' found' =>
          rw [mustSkip_renumber inj] at found'
          obtain rfl := Option.some.inj (found'.symm.trans found)
          exact (congrArg (skipAll (p.renumber φ)) (skip_renumber p f id')).trans ih

omit inj in
theorem regionReady_renumber (φ : Nat → Nat) (p : Plane) (f : Frame) (iterator : String) :
    (f.renumber φ).regionReady (p.renumber φ) iterator = f.regionReady p iterator := by
  have incoming (member : String) : (p.renumber φ).graph.incoming member =
      (p.graph.incoming member).map fun e => (φ e.1, e.2) :=
    Graph.incoming_renumber φ p.graph member
  unfold regionReady
  simp only [incoming, List.all_map]
  rfl

theorem move_renumber (p : Plane) (f : Frame) :
    (f.renumber φ).move (p.renumber φ) = f.move p := by
  have ready : (f.renumber φ).readyMembers (p.renumber φ) = f.readyMembers p := by
    unfold readyMembers
    simp only [readiness_renumber inj]
    rfl
  unfold move
  simp only [regionReady_renumber, ready]
  rfl

theorem gather_renumber (p : Plane) (f : Frame) (id : String) :
    (f.renumber φ).gather (p.renumber φ) id = f.gather p id := by
  have active (e : Nat × Edge) :
      (f.renumber φ).isActive (φ e.1) e.2 = f.isActive e.1 e.2 := by
    unfold isActive
    have seeded : (f.renumber φ).seeded.contains (φ e.1) = f.seeded.contains e.1 :=
      contains_renumber inj _ _
    have state : (f.renumber φ).edges.lookup (φ e.1) = f.edges.lookup e.1 :=
      lookup_renumber inj _ _
    rw [seeded, state]
    rfl
  unfold gather Plane.renumber
  rw [Graph.incoming_renumber, List.foldl_map]
  simp only [active]
  rfl

theorem tasks_renumber (p : Plane) (f : Frame) (ids : List String) :
    (f.renumber φ).tasks (p.renumber φ) ids = f.tasks p ids := by
  unfold tasks
  simp only [gather_renumber inj]
  rfl

theorem settle_renumber (p : Plane) (f : Frame) (n : Node) (x : Execution) :
    (f.renumber φ).settle (p.renumber φ) n x = (f.settle p n x).renumber φ := by
  have behind (f : Frame) : (f.renumber φ).settleBehind (p.renumber φ) n x =
      (f.settleBehind p n x).renumber φ := by
    unfold settleBehind
    rw [edgesWithin_renumber]
    refine settleEdges_renumber f _ fun number => ?_
    have taken : (p.renumber φ).graph.takenEdges n x = (p.graph.takenEdges n x).map φ :=
      takenEdges_renumber φ p.graph n x
    rw [taken, contains_renumber inj]
  have postponed (f : Frame) : (f.renumber φ).postpone n x = (f.postpone n x).renumber φ := by
    unfold postpone
    split <;> rfl
  unfold settle
  rw [← postponed, ← behind]
  rfl

theorem settleRan_renumber (p : Plane) (f : Frame) (ran : List (Task × Ended)) :
    (f.renumber φ).settleRan (p.renumber φ) ran = (f.settleRan p ran).renumber φ := by
  induction ran generalizing f with
  | nil => rfl
  | cons r rest ih =>
      have first := settle_renumber inj p f r.1.node r.2.execution
      exact (congrArg (·.settleRan (p.renumber φ) rest) first).trans (ih _)

end Frame

/-! ## Runs -/

/-- What happens, with other numbers for the edges. -/
def Event.renumber (φ : Nat → Nat) (e : Event) : Event :=
  match e.what with
  | .entered f => ⟨e.place, .entered (f.renumber φ)⟩
  | .finished f => ⟨e.place, .finished (f.renumber φ)⟩
  | _ => e

section

variable {φ : Nat → Nat} (inj : φ.Injective) (h : Host ω) (run : RunPlan)
include inj

theorem waveRan_renumber (f : Frame) (s : Ongoing ω) (ids : List String) :
    waveRan h (run.renumber φ) (f.renumber φ) s ids = waveRan h run f s ids := by
  have tasks : (f.renumber φ).tasks (run.renumber φ).plane ids = f.tasks run.plane ids :=
    Frame.tasks_renumber inj run.plane f ids
  unfold waveRan
  rw [tasks]
  rfl

theorem wave_renumber (f : Frame) (s : Ongoing ω) (ids : List String) :
    wave h (run.renumber φ) (f.renumber φ) s ids =
      ((wave h run f s ids).1.renumber φ, (wave h run f s ids).2) := by
  have tasks : (f.renumber φ).tasks (run.renumber φ).plane ids = f.tasks run.plane ids :=
    Frame.tasks_renumber inj run.plane f ids
  rw [wave_eq, wave_eq, waveRan_renumber inj, tasks]
  refine Prod.ext ?_ rfl
  exact Frame.settleRan_renumber inj run.plane (f.dispatch ids) _

omit inj in
theorem iterations_renumber {runChild runChild' : Frame → Ongoing ω → Frame × Ongoing ω}
    (child : ∀ f s, runChild' (f.renumber φ) s = ((runChild f s).1.renumber φ, (runChild f s).2))
    (around : Frame) (iterator : String) (number : Nat) (payloads : List Json) (s : Ongoing ω) :
    iterations (run.renumber φ) runChild' (around.renumber φ) iterator number payloads s =
      iterations run runChild around iterator number payloads s := by
  induction payloads generalizing number s with
  | nil => rfl
  | cons payload rest ih =>
      have frame : (run.renumber φ).plane.iterationFrame (around.renumber φ) iterator number
          payload = (run.plane.iterationFrame around iterator number payload).renumber φ :=
        Plane.iterationFrame_renumber φ run.plane around iterator number payload
      unfold iterations
      simp only [frame, child, ih]
      rfl

omit inj in
theorem runRegion_renumber {runChild runChild' : Frame → Ongoing ω → Frame × Ongoing ω}
    (child : ∀ f s, runChild' (f.renumber φ) s = ((runChild f s).1.renumber φ, (runChild f s).2))
    (f : Frame) (s : Ongoing ω) (r : PendingRegion) :
    runRegion h (run.renumber φ) runChild' (f.renumber φ) s r =
      ((runRegion h run runChild f s r).1.renumber φ, (runRegion h run runChild f s r).2) := by
  have inner := iterations_renumber run child (f.takeRegion r.iterator) r.iterator 0 r.payloads s
  unfold runRegion
  dsimp only
  rw [show (f.renumber φ).takeRegion r.iterator = (f.takeRegion r.iterator).renumber φ from rfl,
    inner]
  rfl

theorem skipUnreached_renumber (f : Frame) (s : Ongoing ω) :
    skipUnreached (run.renumber φ) (f.renumber φ) s =
      ((skipUnreached run f s).1.renumber φ, (skipUnreached run f s).2) := by
  unfold skipUnreached
  have after : (f.renumber φ).skipAll (run.renumber φ).plane = (f.skipAll run.plane).renumber φ :=
    Frame.skipAll_renumber inj run.plane f
  rw [after]
  rfl

/-- A frame runs as it does with other numbers for its edges. -/
theorem runMoves_renumber (moves : Nat) (f : Frame) (s : Ongoing ω) :
    runMoves h (run.renumber φ) moves (f.renumber φ) s =
      ((runMoves h run moves f s).1.renumber φ, (runMoves h run moves f s).2) := by
  induction moves generalizing f s with
  | zero => rfl
  | succ moves ih =>
      unfold runMoves
      simp only [skipUnreached_renumber inj]
      split
      · rfl
      · generalize skipUnreached run f s = after
        have move : (after.1.renumber φ).move (run.renumber φ).plane = after.1.move run.plane :=
          Frame.move_renumber inj run.plane after.1
        rw [move]
        cases after.1.move run.plane with
        | stop => rfl
        | region r =>
            dsimp only
            rw [runRegion_renumber h run ih, ih]
        | wave ids =>
            dsimp only
            rw [wave_renumber inj, ih]

omit inj in
theorem iterationEvents_renumber {runChild runChild' : Frame → Ongoing ω → Frame × Ongoing ω}
    (child : ∀ f s, runChild' (f.renumber φ) s = ((runChild f s).1.renumber φ, (runChild f s).2))
    {childEvents childEvents' : Place → Frame → Ongoing ω → List Event}
    (events : ∀ place f s, childEvents' place (f.renumber φ) s =
      (childEvents place f s).map (Event.renumber φ))
    (around : Frame) (iterator : String) (place : Place) (number : Nat) (payloads : List Json)
    (s : Ongoing ω) :
    iterationEvents (run.renumber φ) runChild' childEvents' (around.renumber φ) iterator place
        number payloads s =
      (iterationEvents run runChild childEvents around iterator place number payloads s).map
        (Event.renumber φ) := by
  induction payloads generalizing number s with
  | nil => rfl
  | cons payload rest ih =>
      have frame : (run.renumber φ).plane.iterationFrame (around.renumber φ) iterator number
          payload = (run.plane.iterationFrame around iterator number payload).renumber φ :=
        Plane.iterationFrame_renumber φ run.plane around iterator number payload
      unfold iterationEvents
      split
      · rfl
      · simp only [frame, child, events, ih, List.map_append, List.map_cons]
        rfl

/-- What a frame does is the same but for the numbers that frames keep. -/
theorem moveEvents_renumber (moves : Nat) (place : Place) (f : Frame) (s : Ongoing ω) :
    moveEvents h (run.renumber φ) moves place (f.renumber φ) s =
      (moveEvents h run moves place f s).map (Event.renumber φ) := by
  induction moves generalizing place f s with
  | zero => rfl
  | succ moves ih =>
      have skipped : (f.renumber φ).skippedNext (run.renumber φ).plane =
          f.skippedNext run.plane := by
        unfold Frame.skippedNext
        rw [show (f.renumber φ).skipAll (run.renumber φ).plane = _ from
          Frame.skipAll_renumber inj run.plane f]
        rfl
      unfold moveEvents
      simp only [skipUnreached_renumber inj, skipped]
      split
      · rfl
      · generalize skipUnreached run f s = after
        have move : (after.1.renumber φ).move (run.renumber φ).plane = after.1.move run.plane :=
          Frame.move_renumber inj run.plane after.1
        rw [move, List.map_cons]
        refine congrArg₂ List.cons rfl ?_
        cases after.1.move run.plane with
        | stop => rfl
        | region r =>
            have inner := iterationEvents_renumber run (runMoves_renumber inj h run moves) ih
              (after.1.takeRegion r.iterator) r.iterator place 0 r.payloads after.2
            have ready : (after.1.renumber φ).regionReady (run.renumber φ).plane r.iterator =
                after.1.regionReady run.plane r.iterator :=
              Frame.regionReady_renumber φ run.plane after.1 r.iterator
            dsimp only
            rw [runRegion_renumber h run (runMoves_renumber inj h run moves), ih, ready,
              show (after.1.renumber φ).takeRegion r.iterator =
                (after.1.takeRegion r.iterator).renumber φ from rfl, inner, List.map_cons,
              List.map_append, List.map_cons]
            rfl
        | wave ids =>
            have waved : waveEvents h (run.renumber φ) place (after.1.renumber φ) after.2 ids =
                (waveEvents h run place after.1 after.2 ids).map (Event.renumber φ) := by
              unfold waveEvents
              rw [waveRan_renumber inj, show (after.1.renumber φ).tasks (run.renumber φ).plane ids =
                _ from Frame.tasks_renumber inj run.plane after.1 ids, List.map_cons, List.map_map]
              rfl
            dsimp only
            rw [wave_renumber inj, ih, waved, List.map_append]

/-- A run of the graph is the same with other numbers for its edges. -/
theorem runGraph_renumber (request : RunRequest) (g : Graph) (w : World ω) :
    runGraph h request (g.renumber φ) w = runGraph h request g w := by
  have runs := runMoves_renumber inj h (request.plan g) g.moveBound g.topFrame (request.start w)
  rw [← RunRequest.plan_renumber, ← topFrame_renumber] at runs
  have ends := congrArg Prod.snd runs
  exact ends

/-- What a run of the graph does is the same but for the numbers that frames keep. -/
theorem runEvents_renumber (request : RunRequest) (g : Graph) (w : World ω) :
    runEvents h request (g.renumber φ) w = (runEvents h request g w).map (Event.renumber φ) := by
  have events := moveEvents_renumber inj h (request.plan g) g.moveBound [] g.topFrame
    (request.start w)
  rw [← RunRequest.plan_renumber, ← topFrame_renumber] at events
  unfold runEvents
  rw [List.map_cons, ← events, topFrame_renumber]
  rfl

end

theorem executions_renumber (φ : Nat → Nat) (events : List Event) :
    executions (events.map (Event.renumber φ)) = executions events := by
  unfold executions
  rw [List.filterMap_map]
  refine List.filterMap_congr fun e _ => ?_
  obtain ⟨place, what⟩ := e
  cases what <;> rfl

theorem dispatchedWaves_renumber (φ : Nat → Nat) (events : List Event) :
    dispatchedWaves (events.map (Event.renumber φ)) = dispatchedWaves events := by
  unfold dispatchedWaves
  rw [List.filterMap_map]
  refine List.filterMap_congr fun e _ => ?_
  obtain ⟨place, what⟩ := e
  cases what <;> rfl

/-! ## Edges that lead nowhere -/

/-- Two graphs look the same: all that is looked up in them is, but for the numbers of edges. -/
structure Graph.LooksLike (g g' : Graph) : Prop where
  nodes : g'.nodes = g.nodes
  node? : ∀ id, g'.node? id = g.node? id
  outgoing : ∀ id, (g'.outgoing id).map (·.2) = (g.outgoing id).map (·.2)
  incoming : ∀ id, (g'.incoming id).map (·.2) = (g.incoming id).map (·.2)
  next : ∀ id, g'.next id = g.next id
  previous : ∀ id, g'.previous id = g.previous id
  roots : g'.roots = g.roots
  descendants : ∀ id, g'.descendants id = g.descendants id
  regions : g'.regions = g.regions
  cycle : g'.cycleNode? = g.cycleNode?
  branches : ∀ id index conditions, (selectBranch (g'.outgoing id) index conditions).map (·.2) =
    (selectBranch (g.outgoing id) index conditions).map (·.2)

theorem Graph.looksLike_renumber (φ : Nat → Nat) (g : Graph) : g.LooksLike (g.renumber φ) where
  nodes := rfl
  node? _ := rfl
  outgoing id := by simp [Function.comp_def]
  incoming id := by simp [Function.comp_def]
  next := next_renumber φ g
  previous := previous_renumber φ g
  roots := roots_renumber φ g
  descendants := descendants_renumber φ g
  regions := regions_renumber φ g
  cycle := cycleNode?_renumber φ g
  branches id index conditions := by
    rw [outgoing_renumber, selectBranch_renumber, List.map_map]
    rfl

/-- Two workflows run the same in every world: they end with the same summary or error in the same
world, after the same waves and the same executions. -/
structure Workflow.RunsLike (w w' : Workflow) : Prop where
  ends : ∀ {ω : Type} (h : Host ω) (request : RunRequest) (world : World ω),
    execute h { request with workflow := w' } world = execute h { request with workflow := w } world
  waves : ∀ {ω : Type} (h : Host ω) (request : RunRequest) (world : World ω),
    dispatchedWaves (runEvents h { request with workflow := w' } (Graph.ofWorkflow w') world) =
      dispatchedWaves (runEvents h { request with workflow := w } (Graph.ofWorkflow w) world)
  executions : ∀ {ω : Type} (h : Host ω) (request : RunRequest) (world : World ω),
    executions (runEvents h { request with workflow := w' } (Graph.ofWorkflow w') world) =
      executions (runEvents h { request with workflow := w } (Graph.ofWorkflow w) world)

/-- Edges that lead nowhere do not show, wherever they stand among the others: the graph looks the
same, and every run of the workflow is the same. -/
theorem padding_inert {w : Workflow} {edges : List Edge}
    (padded : Padded w.Malformed w.edges edges) :
    (Graph.ofWorkflow w).LooksLike (Graph.ofWorkflow { w with edges }) ∧
      w.RunsLike { w with edges } := by
  obtain ⟨φ, inj, same⟩ := Graph.ofWorkflow_padded padded
  have looks := Graph.looksLike_renumber φ (Graph.ofWorkflow w)
  rw [← same] at looks
  refine ⟨looks, fun h request world => ?_, fun h request world => ?_, fun h request world => ?_⟩
  · have runs (world : World _) := runGraph_renumber inj h { request with workflow := w }
      (Graph.ofWorkflow w) world
    rw [← same] at runs
    unfold execute executeReserved
    dsimp only
    rw [looks.cycle]
    simp only [← runs]
    rfl
  · have events := runEvents_renumber inj h { request with workflow := w } (Graph.ofWorkflow w)
      world
    rw [← same] at events
    exact (congrArg dispatchedWaves events).trans (dispatchedWaves_renumber φ _)
  · have events := runEvents_renumber inj h { request with workflow := w } (Graph.ofWorkflow w)
      world
    rw [← same] at events
    exact (congrArg Flowline.executions events).trans (executions_renumber φ _)

/-- A condition whose branches are counted. -/
def Workflow.fork : Workflow where
  nodes := [{ id := "if", config := .conditional {} },
    { id := "then", config := .format { template := "-" } },
    { id := "else", config := .format { template := "-" } }]
  edges := [{ source := "if", target := "then" }, { source := "if", target := "else" }]

/-- Its edges among some that lead nowhere. -/
def Workflow.frayed : List Edge :=
  [{ source := "", target := "then" }, { source := "if", target := "then" },
    { source := "if", target := "gone" }, { source := "if", target := "else" },
    { source := "else", target := "" }]

example : ((Graph.ofWorkflow { Workflow.fork with edges := Workflow.frayed }).edges.map (·.1)) =
    [1, 3] := by decide

/-- The condition takes the branches that it has, whatever numbers their edges have. -/
theorem padding_inert_frayed :
    Padded Workflow.fork.Malformed Workflow.fork.edges Workflow.frayed ∧
      (Graph.ofWorkflow Workflow.fork).LooksLike
        (Graph.ofWorkflow { Workflow.fork with edges := Workflow.frayed }) ∧
      Workflow.fork.RunsLike { Workflow.fork with edges := Workflow.frayed } := by
  have unnamed : ¬ Workflow.fork.Names "" := fun named => named.1 rfl
  have gone : ¬ Workflow.fork.Names "gone" := fun named => absurd named.2 (by decide)
  have first : Workflow.fork.Malformed { source := "", target := "then" } := Or.inl unnamed
  have second : Workflow.fork.Malformed { source := "if", target := "gone" } := Or.inr gone
  have third : Workflow.fork.Malformed { source := "else", target := "" } := Or.inr unnamed
  have padded : Padded Workflow.fork.Malformed Workflow.fork.edges Workflow.frayed :=
    .add first (.keep _ (.add second (.keep _ (.add third .nil))))
  exact ⟨padded, padding_inert padded⟩

end Flowline
