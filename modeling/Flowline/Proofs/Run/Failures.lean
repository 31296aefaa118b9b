import Mathlib.Data.List.Permutation
import Flowline.Proofs.Api.Host
import Flowline.Proofs.Run.Feeding

/-!
# Behind nodes that fail

A node with `continueOnFailure` goes on behind a failure: a node that it feeds alone is dispatched
next in the same frame, with the data of the failure as all that comes in.  So it is for every kind
of node but iterators.  An iterator that fails leaves no region, so that what it feeds alone, which
is in its region, does not run at all, whether or not the iterator is to go on.

* `Outcome.failureData?`: what a failure hands on.
* `passesFailuresOn_runEvents`: what follows each failure in a run.
-/

namespace Flowline

open Api

variable {ω : Type}

/-- What a failure hands on: the message of an error, or the data of an output that counts as
failed. -/
def Outcome.failureData? : Outcome → Option Json
  | .error e => some (.obj [("error", .str e.message)])
  | .ok output => output.failure.map fun _ => output.data

theorem Execution.failureData?_of_failed {outcome : Outcome}
    (failed : (ofOutcome outcome).failed = true) :
    outcome.failureData? = some (ofOutcome outcome).data := by
  cases outcome with
  | error e => rfl
  | ok output =>
      have failed : (output.failure.map (·.message)).isSome = true := failed
      rw [Option.isSome_map] at failed
      obtain ⟨failure, same⟩ := Option.isSome_iff_exists.1 failed
      simp [Outcome.failureData?, same, ofOutcome]

/-- A failed execution of a node that is to go on goes along all edges, -/
theorem Graph.mem_takenEdges_of_failed {g : Graph} {n : Node} {x : Execution}
    (can : n.CanComeTo x) (failed : x.failed = true) (goes_on : n.continueOnFailure = true)
    {e : Nat × Edge} (mem : e ∈ g.outgoing n.id) : e.1 ∈ g.takenEdges n x := by
  have continues : x.continues n = true := by simp [Execution.continues, goes_on]
  rw [takenEdges, if_pos continues, can.all_of_failed failed]
  exact List.mem_map_of_mem mem

/-- but it leaves no region. -/
theorem Frame.regionLeft_of_failed {n : Node} {x : Execution} (failed : x.failed = true) :
    regionLeft n x = none := by
  obtain ⟨message, error⟩ := Option.isSome_iff_exists.1 failed
  simp [regionLeft, error]

/-- The node is dispatched in the frame at the place, and the output of the source is all that comes
in. -/
def Fed (events : List Event) (place : Place) (source id : String) (data : Json) : Prop :=
  ∃ tasks, ⟨place, .dispatched tasks⟩ ∈ events ∧
    ∃ t ∈ tasks, t.node.id = id ∧ t.input = [(source, data)]

/-- What follows each failure in a run: what nodes that go on hand on, and what iterators do not. -/
structure PassesFailuresOn (g : Graph) (events : List Event) : Prop where
  /-- A node that is fed by nothing but the failed one is dispatched later in the same frame. -/
  fed : ∀ past place t ended later, events = past ++ ⟨place, .settled t ended⟩ :: later →
    ended.execution.failed = true → t.node.continueOnFailure = true → t.node.kind ≠ .iterator →
      ∃ outcome data, ended.execution = .ofOutcome outcome ∧ outcome.failureData? = some data ∧
        ∀ id, g.FedOnlyBy t.node.id id → Fed later place t.node.id id data
  /-- If the failed node is an iterator, such a node is neither dispatched nor skipped later, in the
  same frame or inside it. -/
  unfed : ∀ past place t ended later, events = past ++ ⟨place, .settled t ended⟩ :: later →
    ended.execution.failed = true → t.node.kind = .iterator →
      ∀ id, g.FedOnlyBy t.node.id id → ∀ e ∈ later, place <:+ e.place → id ∉ e.settles

section

variable {h : Host ω} {request : RunRequest} {g : Graph} {place : Place} {x : Task × Ended}
  {later rest : List Event} {f₁ f₂ : Frame} {s₁ s₂ : Ongoing ω} {ids : List String}
  {ran : List (Task × Ended)} (wf : g.WellFormed) (acyclic : g.Acyclic)
  (in_wave : InWave h request g place x later f₁ f₂ s₁ s₂ ids ran rest)
include wf in_wave

/-- What runs in a wave is the node of its name, and a member of the frame. -/
theorem InWave.node_mem : g.node? x.1.node.id = some x.1.node ∧ x.1.node.id ∈ f₁.members := by
  have waved := in_wave.waved
  obtain ⟨id, -, found, -⟩ :=
    Frame.mem_tasks.1 (waved.began.subset (List.mem_map_of_mem in_wave.mem))
  obtain ⟨-, rfl⟩ := (Graph.node?_eq_some_iff wf).1 found
  exact ⟨found, waved.members (waved.ranIds_sublist.subset (List.mem_map_of_mem in_wave.mem))⟩

omit wf in
theorem InWave.canComeTo (alone : h.LeavesRunsAlone) : x.1.node.CanComeTo x.2.execution := by
  have mem := in_wave.mem
  rw [← in_wave.dispatched] at mem
  exact canComeTo_of_mem_waveRan alone in_wave.held mem

include acyclic

/-- Behind a failure of a node that goes on and is no iterator. -/
theorem InWave.fed (alone : h.LeavesRunsAlone) (failed : x.2.execution.failed = true)
    (goes_on : x.1.node.continueOnFailure = true) (kind : x.1.node.kind ≠ .iterator) {id : String}
    (fed : g.FedOnlyBy x.1.node.id id) :
    Fed later place x.1.node.id id x.2.execution.data := by
  obtain ⟨found, member⟩ := in_wave.node_mem wf
  have members : f₁.members = g.membersAt place := in_wave.sound.shape.members
  have no_iterator : ¬ g.IsIterator x.1.node.id := by
    rintro ⟨n, n_mem, same, is⟩
    have same_node := found.symm.trans ((Graph.node?_eq_some_iff wf).2 ⟨n_mem, same⟩)
    exact kind (Option.some.inj same_node ▸ is)
  have target : id ∈ f₁.members :=
    members ▸ fed.mem_membersAt wf acyclic no_iterator (members ▸ member)
  have can := in_wave.canComeTo alone
  have feeds := in_wave.waved.feeds wf acyclic in_wave.ready in_wave.sound in_wave.orderly
    in_wave.mem fed target (fun e mem => Graph.mem_takenEdges_of_failed can failed goes_on mem)
    (Frame.regionLeft_of_failed failed)
  obtain ⟨f', s', frame_run, going⟩ := in_wave.goes_on
  obtain ⟨tasks, mem, dispatched⟩ := frame_run.feeds wf acyclic alone going feeds
  exact ⟨tasks, in_wave.rest_subset mem, dispatched⟩

/-- Behind a failure of an iterator nothing that it repeats is ahead of its frame. -/
theorem InWave.unfed (alone : h.LeavesRunsAlone) (failed : x.2.execution.failed = true)
    (kind : x.1.node.kind = .iterator) {id : String} (fed : g.FedOnlyBy x.1.node.id id) {e : Event}
    (mem : e ∈ later) (inside : place <:+ e.place) : id ∉ e.settles := by
  intro settles
  obtain ⟨found, member⟩ := in_wave.node_mem wf
  have is : g.IsIterator x.1.node.id := ⟨_, ((Graph.node?_eq_some_iff wf).1 found).1, rfl, kind⟩
  have repeats : g.Repeats x.1.node.id id := fed.repeats_of_isIterator is
  obtain ⟨f', s', frame_run, -⟩ := in_wave.goes_on
  rcases in_wave.only e mem inside with in_rest | nothing
  · have ahead := (frame_run.touches wf acyclic alone e in_rest).ahead
      (e.settles_subset_about settles)
    have members : f₁.members = g.membersAt place := in_wave.sound.shape.members
    have waved := in_wave.waved
    rcases ahead with ⟨id_member, -⟩ | ⟨O, unfinished, owns⟩
    · rw [waved.follows.members] at id_member
      exact in_wave.sound.shape.not_repeats wf acyclic id_member
        (in_wave.sound.shape.mem_candidates member) repeats
    · have O_mem : O ∈ f₁.members := waved.follows.members ▸ unfinished.1
      rw [members] at O_mem member
      obtain rfl := Plane.owner_unique wf acyclic O_mem member owns repeats
      rcases (Frame.unfinished_iff.1 unfinished).2 with fresh | ⟨r, waits, same⟩
      · rw [waved.settled_eq] at fresh
        exact fresh (List.mem_append_left _
          (waved.ranIds_sublist.subset (List.mem_map_of_mem in_wave.mem)))
      · exact waved.idle in_wave.sound in_wave.mem (Frame.regionLeft_of_failed failed) r waits same
  · rw [nothing] at settles
    exact absurd settles List.not_mem_nil

end

/-- **Failures are passed on.**  In a run that is neither cancelled nor halted, each failure of a node
that is to go on is handed to the nodes that it feeds alone, unless the node is an iterator. -/
theorem passesFailuresOn_runEvents {h : Host ω} {request : RunRequest} (alone : h.LeavesRunsAlone)
    (acyclic : (Graph.ofWorkflow request.workflow).Acyclic) {w : World ω}
    (held : w.engine.slotHeld = true)
    (goes_on : (runGraph h request (Graph.ofWorkflow request.workflow) w).stopped = false) :
    let g := Graph.ofWorkflow request.workflow
    PassesFailuresOn g (runEvents h request g w) := by
  intro g
  have wf : g.WellFormed := Graph.wellFormed_ofWorkflow request.workflow
  obtain ⟨f, events, listed, frame_run⟩ := frameRun_runEvents request wf acyclic alone held
  have in_wave {past later : List Event} {place : Place} {t : Task} {ended : Ended}
      (split : runEvents h request g w = past ++ ⟨place, .settled t ended⟩ :: later) :
      ∃ f₁ f₂ s₁ s₂ ids ran rest,
        InWave h request g place (t, ended) later f₁ f₂ s₁ s₂ ids ran rest := by
    rw [listed] at split
    obtain ⟨past, -, split⟩ := cons_split split (by simp)
    exact frame_run.exists_inWave wf acyclic alone goes_on
      (fun id mem => absurd mem List.not_mem_nil) split
  constructor
  · intro past place t ended later split failed continues kind
    obtain ⟨f₁, f₂, s₁, s₂, ids, ran, rest, in_wave⟩ := in_wave split
    obtain ⟨outcome, same, -⟩ := (in_wave.canComeTo alone).exists_outcome
    refine ⟨outcome, ended.execution.data, same, ?_, fun id fed => ?_⟩
    · rw [same] at failed ⊢
      exact Execution.failureData?_of_failed failed
    · exact in_wave.fed wf acyclic alone failed continues kind fed
  · intro past place t ended later split failed kind id fed e mem inside
    obtain ⟨f₁, f₂, s₁, s₂, ids, ran, rest, in_wave⟩ := in_wave split
    exact in_wave.unfed wf acyclic alone failed kind fed mem inside

/-- An iterator and a format that fail and are to go on, each with a node behind it. -/
def brokenLoop : Workflow :=
  { nodes := [{ id := "each", config := .iterator { mode := .custom, items := "\x7b\x7ba..b\x7d\x7d" },
                continueOnFailure := true },
      { id := "inside", config := .format { template := "-" } },
      { id := "break", config := .format { mode := .json, template := "\x7b" },
        continueOnFailure := true },
      { id := "handle", config := .format { template := "-" } }]
    edges := [{ source := "each", target := "inside" }, { source := "break", target := "handle" }] }

theorem Graph.acyclic_brokenLoop : (ofWorkflow brokenLoop).Acyclic :=
  acyclic_of_rank (fun id => if id = "inside" ∨ id = "handle" then 1 else 0) (by decide)

theorem Plane.ofGraph_brokenLoop : ofGraph (Graph.ofWorkflow brokenLoop) =
    ⟨Graph.ofWorkflow brokenLoop, [("each", ["inside"])]⟩ := by
  have regions : (Graph.ofWorkflow brokenLoop).regions = [("each", ["inside"])] := by
    cbv
  rw [ofGraph, regions]

theorem stopped_brokenLoop : (runGraph (Server.attentive .unavailable) { workflow := brokenLoop }
    (Graph.ofWorkflow brokenLoop) (Server.reserved brokenLoop)).stopped = false := by
  simp only [runGraph, Plane.ofGraph_brokenLoop]
  decide +kernel

theorem passesFailuresOn_brokenLoop :
    let g := Graph.ofWorkflow brokenLoop
    let events := runEvents (Server.attentive .unavailable) { workflow := brokenLoop } g
      (Server.reserved brokenLoop)
    (executions events).map (fun x => (x.id, x.task.sources, x.ended.execution.failed)) =
      [("each", [], true), ("break", [], true), ("handle", ["break"], false)] ∧
    PassesFailuresOn g events := by
  intro g events
  refine ⟨?_, ?_⟩
  · simp only [g, events, runEvents, RunRequest.plan, Graph.topFrame, Plane.ofGraph_brokenLoop]
    decide +kernel
  · exact passesFailuresOn_runEvents (Server.leavesRunsAlone_attentive _) Graph.acyclic_brokenLoop
      rfl stopped_brokenLoop

/-- Behind the iterator nothing runs, although it is to go on. -/
theorem unfed_behind_brokenLoop :
    let g := Graph.ofWorkflow brokenLoop
    let events := runEvents (Server.attentive .unavailable) { workflow := brokenLoop } g
      (Server.reserved brokenLoop)
    let s := runGraph (Server.attentive .unavailable) { workflow := brokenLoop } g
      (Server.reserved brokenLoop)
    g.Acyclic ∧ s.stopped = false ∧ g.FedOnlyBy "each" "inside" ∧
      (∃ x ∈ executions events, x.id = "each" ∧ x.task.node.continueOnFailure = true ∧
        x.ended.execution.failed = true) ∧
      (∀ e ∈ events, "inside" ∉ e.settles) ∧ s.progress.results.has "inside" = false := by
  intro g events s
  refine ⟨Graph.acyclic_brokenLoop, stopped_brokenLoop, ⟨by decide, by decide⟩, ?_, ?_, ?_⟩
  · simp only [g, events, runEvents, RunRequest.plan, Graph.topFrame, Plane.ofGraph_brokenLoop]
    decide +kernel
  · simp only [g, events, runEvents, RunRequest.plan, Graph.topFrame, Plane.ofGraph_brokenLoop]
    decide +kernel
  · simp only [g, s, runGraph, Plane.ofGraph_brokenLoop]
    decide +kernel

end Flowline
