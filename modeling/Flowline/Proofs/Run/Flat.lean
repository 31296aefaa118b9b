import Flowline.Proofs.Node.Propagation
import Flowline.Proofs.Run.History

/-!
# Runs without iterators

Without iterators a run has one frame, of which all nodes are members.  What a frame knows of a
member that is settled, it knows to the end (`Frame.Keeps`), so each execution can be read off the
frame at the end of the run.

* `Frame.Tells`, `Frame.Passed`: what a frame tells of an execution, and of a member that was
  skipped.
* `FrameRun.flows`: all members that a run settles are told of at its end.
-/

namespace Flowline

variable {ω : Type} {g : Graph}

namespace Frame

/-- A frame whose members are all nodes. -/
structure Flat (g : Graph) (f : Frame) : Prop where
  sound : f.Sound g []
  members : g.ids ⊆ f.members
  seeded : f.seeded = []
  pending : f.pending = []

/-- A node has no edge into it, or one of them is taken. -/
def Reached (g : Graph) (f : Frame) (id : String) : Prop :=
  g.incoming id = [] ∨ ∃ e ∈ g.incoming id, f.edges.lookup e.1 = some .taken

/-- The predecessors of a node are settled. -/
def Decided (g : Graph) (f : Frame) (id : String) : Prop :=
  ∀ e ∈ g.incoming id, e.2.source ∈ f.settled

/-- What is known of settled members stays as it is. -/
structure Keeps (g : Graph) (f f' : Frame) : Prop where
  settled : f.settled ⊆ f'.settled
  edges : ∀ e ∈ g.edges, e.2.source ∈ f.settled → f'.edges.lookup e.1 = f.edges.lookup e.1
  scope : ∀ id ∈ f.settled, f'.scope.get? id = f.scope.get? id

/-- The frame knows of an execution. -/
structure Tells (g : Graph) (f : Frame) (x : Ran) : Prop where
  place : x.place = []
  node : g.node? x.id = some x.task.node
  settled : x.id ∈ f.settled
  decided : f.Decided g x.id
  reached : f.Reached g x.id
  input : x.task.input = f.gather (Plane.ofGraph g) x.id
  data : f.scope.get? x.id = some x.ended.execution.data
  edges : ∀ e ∈ g.edges, e.2.source = x.id → f.edges.lookup e.1 =
    some (if (g.takenEdges x.task.node x.ended.execution).contains e.1 then .taken else .skipped)

/-- The frame knows of a member that was skipped. -/
structure Passed (g : Graph) (f : Frame) (id : String) : Prop where
  settled : id ∈ f.settled
  decided : f.Decided g id
  unreached : ¬ f.Reached g id
  edges : ∀ e ∈ g.edges, e.2.source = id → f.edges.lookup e.1 = some .skipped

variable {f f' f'' : Frame} {id : String}

theorem Keeps.refl (f : Frame) : Keeps g f f where
  settled := fun _ mem => mem
  edges _ _ _ := rfl
  scope _ _ := rfl

theorem Keeps.trans (first : Keeps g f f') (second : Keeps g f' f'') : Keeps g f f'' where
  settled := fun _ mem => second.settled (first.settled mem)
  edges e edge mem := (second.edges e edge (first.settled mem)).trans (first.edges e edge mem)
  scope id mem := (second.scope id (first.settled mem)).trans (first.scope id mem)

theorem Keeps.decided (keeps : Keeps g f f') (decided : f.Decided g id) : f'.Decided g id :=
  fun e mem => keeps.settled (decided e mem)

theorem Keeps.reached_iff (keeps : Keeps g f f') (decided : f.Decided g id) :
    f'.Reached g id ↔ f.Reached g id := by
  refine or_congr_right (exists_congr fun e => and_congr_right fun mem => ?_)
  rw [keeps.edges e (Graph.mem_incoming.1 mem).1 (decided e mem)]

/-! ## Flat frames -/

section

variable (wf : g.WellFormed) (acyclic : g.Acyclic)
include wf acyclic

theorem Flat.verdict_eq (flat : f.Flat g) {e : Nat × Edge} (edge : e ∈ g.edges) :
    f.verdict e.1 e.2 = (f.edges.lookup e.1).elim .open_ .settled := by
  have member : e.2.source ∈ f.members := flat.members (wf.ends e edge).1
  have free := flat.sound.shape.get?_nested_of_mem wf acyclic member
  unfold verdict
  rw [flat.seeded, free]
  simp only [List.contains_iff_mem.2 member]
  cases f.edges.lookup e.1 <;> rfl

omit acyclic in
theorem Flat.isActive_eq (flat : f.Flat g) {e : Nat × Edge} (edge : e ∈ g.edges) :
    f.isActive e.1 e.2 = (f.edges.lookup e.1 == some .taken) := by
  have member : e.2.source ∈ f.members := flat.members (wf.ends e edge).1
  simp [isActive, flat.seeded, member]

omit acyclic in
/-- The edges of a flat frame are settled with their sources. -/
theorem Flat.isSome_lookup_iff (flat : f.Flat g) {e : Nat × Edge} (edge : e ∈ g.edges) :
    (f.edges.lookup e.1).isSome ↔ e.2.source ∈ f.settled :=
  flat.sound.edges e edge (flat.members (wf.ends e edge).1) (flat.members (wf.ends e edge).2)

theorem Flat.decided_of_ne_waiting (flat : f.Flat g)
    (moves : f.readiness (Plane.ofGraph g) id ≠ .waiting) : f.Decided g id := by
  intro e mem
  have edge := (Graph.mem_incoming.1 mem).1
  rw [← flat.isSome_lookup_iff wf edge]
  by_contra unsettled
  refine moves ?_
  rw [readiness_ofGraph, readinessOf_eq_waiting_iff]
  refine List.mem_map.2 ⟨e, mem, ?_⟩
  rw [flat.verdict_eq wf acyclic edge, Option.not_isSome_iff_eq_none.1 unsettled]
  rfl

theorem Flat.reached_iff (flat : f.Flat g) : f.Reached g id ↔
    (∀ v ∈ (g.incoming id).map (fun e => f.verdict e.1 e.2), v = .ignored) ∨
      .settled .taken ∈ (g.incoming id).map (fun e => f.verdict e.1 e.2) := by
  have counts (e : Nat × Edge) (mem : e ∈ g.incoming id) :
      f.verdict e.1 e.2 = (f.edges.lookup e.1).elim .open_ .settled :=
    flat.verdict_eq wf acyclic (Graph.mem_incoming.1 mem).1
  refine or_congr ?_ ?_
  · constructor
    · intro none_in
      simp [none_in]
    · intro all
      refine List.eq_nil_iff_forall_not_mem.2 fun e mem => ?_
      have ignored := all _ (List.mem_map_of_mem mem)
      rw [counts e mem] at ignored
      cases found : f.edges.lookup e.1 <;> simp [found] at ignored
  · rw [List.mem_map]
    refine exists_congr fun e => and_congr_right fun mem => ?_
    rw [counts e mem]
    cases f.edges.lookup e.1 with
    | none => simp
    | some state => simp

theorem Flat.of_ready (flat : f.Flat g)
    (ready : f.readiness (Plane.ofGraph g) id = .ready) : f.Decided g id ∧ f.Reached g id := by
  refine ⟨flat.decided_of_ne_waiting wf acyclic (by simp [ready]), ?_⟩
  rw [readiness_ofGraph, readinessOf_eq_ready_iff] at ready
  exact (flat.reached_iff wf acyclic).2 ready.2

theorem Flat.of_skip (flat : f.Flat g)
    (skips : f.readiness (Plane.ofGraph g) id = .skip) : f.Decided g id ∧ ¬ f.Reached g id := by
  refine ⟨flat.decided_of_ne_waiting wf acyclic (by simp [skips]), fun reached => ?_⟩
  rw [readiness_ofGraph, readinessOf_eq_skip_iff] at skips
  obtain ⟨-, untaken, v, mem, counted⟩ := skips
  rcases (flat.reached_iff wf acyclic).1 reached with ignored | taken
  · exact counted (ignored v mem)
  · exact untaken taken

omit acyclic in
/-- What comes into a node stays the same. -/
theorem Keeps.gather_eq (keeps : Keeps g f f') (flat : f.Flat g) (flat' : f'.Flat g)
    (decided : f.Decided g id) :
    f'.gather (Plane.ofGraph g) id = f.gather (Plane.ofGraph g) id := by
  unfold gather
  refine List.foldl_ext _ _ _ fun input e mem => ?_
  have edge := (Graph.mem_incoming.1 mem).1
  rw [flat.isActive_eq wf edge, flat'.isActive_eq wf edge, keeps.edges e edge (decided e mem),
    keeps.scope e.2.source (decided e mem)]

omit acyclic in
theorem Tells.keep {x : Ran} (tells : f.Tells g x) (keeps : Keeps g f f') (flat : f.Flat g)
    (flat' : f'.Flat g) : f'.Tells g x where
  place := tells.place
  node := tells.node
  settled := keeps.settled tells.settled
  decided := keeps.decided tells.decided
  reached := (keeps.reached_iff tells.decided).2 tells.reached
  input := tells.input.trans (keeps.gather_eq wf flat flat' tells.decided).symm
  data := (keeps.scope x.id tells.settled).trans tells.data
  edges e edge source := by
    rw [keeps.edges e edge (source ▸ tells.settled)]
    exact tells.edges e edge source

omit wf acyclic in
theorem Passed.keep (passed : f.Passed g id) (keeps : Keeps g f f') : f'.Passed g id where
  settled := keeps.settled passed.settled
  decided := keeps.decided passed.decided
  unreached reached := passed.unreached ((keeps.reached_iff passed.decided).1 reached)
  edges e edge source := by
    rw [keeps.edges e edge (source ▸ passed.settled)]
    exact passed.edges e edge source

/-! ## Skipping -/

omit acyclic in
theorem Flat.skip (flat : f.Flat g) (member : id ∈ f.members) (fresh : id ∉ f.settled) :
    (f.skip (Plane.ofGraph g) id).Flat g where
  sound := flat.sound.skip wf member fresh
  members := flat.members
  seeded := flat.seeded
  pending := flat.pending

omit acyclic in
theorem keeps_skip (fresh : id ∉ f.settled) : Keeps g f (f.skip (Plane.ofGraph g) id) where
  settled := List.subset_cons_self _ _
  edges e edge mem := by
    have other : ¬ (e.2.source = id ∧ e.2.target ∈ f.members) := fun both => fresh (both.1 ▸ mem)
    rw [lookup_skip wf edge, if_neg other]
  scope _ _ := rfl

theorem Flat.passed_skip (flat : f.Flat g) (skips : f.readiness (Plane.ofGraph g) id = .skip)
    (fresh : id ∉ f.settled) : (f.skip (Plane.ofGraph g) id).Passed g id := by
  obtain ⟨decided, unreached⟩ := flat.of_skip wf acyclic skips
  have keeps := keeps_skip wf fresh
  refine ⟨List.mem_cons_self, keeps.decided decided, fun reached => ?_, fun e edge source => ?_⟩
  · exact unreached ((keeps.reached_iff decided).1 reached)
  · rw [lookup_skip wf edge, if_pos ⟨source, flat.members (wf.ends e edge).2⟩]

/-- Skipping keeps a frame flat, and what is skipped is known. -/
theorem Flat.skipAll (flat : f.Flat g) :
    (f.skipAll (Plane.ofGraph g)).Flat g ∧ Keeps g f (f.skipAll (Plane.ofGraph g)) ∧
      ∀ id ∈ (f.skipAll (Plane.ofGraph g)).settled,
        id ∉ f.settled → (f.skipAll (Plane.ofGraph g)).Passed g id := by
  refine skipAll_induction (motive := fun f' => f'.Flat g ∧ Keeps g f f' ∧
    ∀ id ∈ f'.settled, id ∉ f.settled → f'.Passed g id) f
      ⟨flat, Keeps.refl f, fun id mem new => absurd mem new⟩ ?_
  rintro f' id ⟨flat', keeps, passed⟩ member skips
  have fresh := not_mem_settled_of_mustSkip skips
  have verdict : f'.readiness (Plane.ofGraph g) id = .skip := by
    simpa [mustSkip, isSettled, fresh] using skips
  refine ⟨flat'.skip wf member fresh, keeps.trans (keeps_skip wf fresh), fun other mem new => ?_⟩
  rcases List.mem_cons.1 mem with rfl | mem
  · exact flat'.passed_skip wf acyclic verdict fresh
  · exact (passed other mem new).keep (keeps_skip wf fresh)

end

/-! ## Waves -/

section

variable {p : Plane} {ran : List (Task × Ended)} {r : Task × Ended}

theorem get?_scope_settleRan_of_not_mem (stranger : id ∉ ranIds ran) :
    (f.settleRan p ran).scope.get? id = f.scope.get? id := by
  induction ran generalizing f with
  | nil => rfl
  | cons first rest ih =>
      obtain ⟨other, stranger⟩ := not_or.1 (List.mem_cons.not.1 stranger)
      rw [settleRan_cons, ih stranger, scope_settle, Entries.get?_put_of_ne other]

/-- Each node that ran shows the data that it came to. -/
theorem get?_scope_settleRan (distinct : (ranIds ran).Nodup) (mem : r ∈ ran) :
    (f.settleRan p ran).scope.get? r.1.node.id = some r.2.execution.data := by
  induction ran generalizing f with
  | nil => cases mem
  | cons first rest ih =>
      obtain ⟨new, distinct⟩ := List.nodup_cons.1 distinct
      rw [settleRan_cons]
      rcases List.mem_cons.1 mem with rfl | mem
      · rw [get?_scope_settleRan_of_not_mem new, scope_settle, Entries.get?_put_self]
      · exact ih distinct mem

variable {e : Nat × Edge}

theorem lookup_settleRan_of_not_mem (wf : g.WellFormed) (edge : e ∈ g.edges)
    (stranger : e.2.source ∉ ranIds ran) :
    (f.settleRan (Plane.ofGraph g) ran).edges.lookup e.1 = f.edges.lookup e.1 := by
  induction ran generalizing f with
  | nil => rfl
  | cons first rest ih =>
      obtain ⟨other, stranger⟩ := not_or.1 (List.mem_cons.not.1 stranger)
      rw [settleRan_cons, ih stranger, lookup_settle wf edge, if_neg fun both => other both.1]

/-- The edges of each node that ran are settled as it says. -/
theorem lookup_settleRan (wf : g.WellFormed) (edge : e ∈ g.edges)
    (target : e.2.target ∈ f.members) (distinct : (ranIds ran).Nodup) (mem : r ∈ ran)
    (source : e.2.source = r.1.node.id) :
    (f.settleRan (Plane.ofGraph g) ran).edges.lookup e.1 =
      some (if (g.takenEdges r.1.node r.2.execution).contains e.1 then .taken else .skipped) := by
  induction ran generalizing f with
  | nil => cases mem
  | cons first rest ih =>
      obtain ⟨new, distinct⟩ := List.nodup_cons.1 distinct
      rw [settleRan_cons]
      rcases List.mem_cons.1 mem with rfl | mem
      · rw [lookup_settleRan_of_not_mem wf edge (source ▸ new), lookup_settle wf edge,
          if_pos ⟨source, target⟩]
      · exact ih (by simpa using target) distinct mem

end

theorem mem_tasks {p : Plane} {ids : List String} {t : Task} :
    t ∈ f.tasks p ids ↔ ∃ id ∈ ids, p.graph.node? id = some t.node ∧ t.input = f.gather p id := by
  unfold tasks
  rw [List.mem_filterMap]
  refine exists_congr fun id => and_congr_right fun _ => ?_
  rw [Option.map_eq_some_iff]
  constructor
  · rintro ⟨n, found, rfl⟩
    exact ⟨found, rfl⟩
  · rintro ⟨found, same⟩
    exact ⟨t.node, found, by rw [← same]⟩

end Frame

namespace Waved

variable {f₁ f₂ : Frame} {s₁ s₂ : Ongoing ω} {ids : List String} {ran : List (Task × Ended)}

/-- A wave that leaves no region keeps a frame flat. -/
theorem flat (wf : g.WellFormed) (waved : Waved g f₁ s₁ ids ran f₂ s₂) (flat : f₁.Flat g)
    (goes_on : s₂.stopped = false)
    (single : ∀ r ∈ ran, Frame.regionLeft r.1.node r.2.execution = none) : f₂.Flat g where
  sound := waved.sound wf flat.sound goes_on
  members := by
    rw [waved.follows.members]
    exact flat.members
  seeded := by
    rw [waved.frame_eq, Frame.seeded_settleRan]
    exact flat.seeded
  pending := by
    have nothing : (ran.filterMap fun r => Frame.regionLeft r.1.node r.2.execution) = [] :=
      List.filterMap_eq_nil_iff.2 single
    rw [waved.frame_eq, Frame.pending_settleRan, nothing, List.append_nil]
    exact flat.pending

theorem keeps (wf : g.WellFormed) (waved : Waved g f₁ s₁ ids ran f₂ s₂) :
    Frame.Keeps g f₁ f₂ where
  settled := waved.follows.settled
  edges e edge mem := by
    have stranger : e.2.source ∉ Frame.ranIds ran := fun ran_mem =>
      waved.fresh _ (waved.ranIds_sublist.subset ran_mem) mem
    rw [waved.frame_eq, Frame.lookup_settleRan_of_not_mem wf edge stranger]
    rfl
  scope id mem := by
    have stranger : id ∉ Frame.ranIds ran := fun ran_mem =>
      waved.fresh _ (waved.ranIds_sublist.subset ran_mem) mem
    rw [waved.frame_eq, Frame.get?_scope_settleRan_of_not_mem stranger]
    rfl

/-- The frame knows of each execution of a wave of members that were ready. -/
theorem tells (wf : g.WellFormed) (acyclic : g.Acyclic) (waved : Waved g f₁ s₁ ids ran f₂ s₂)
    (ready : f₁.readyMembers (Plane.ofGraph g) = ids) (flat : f₁.Flat g) (flat₂ : f₂.Flat g)
    {r : Task × Ended} (mem : r ∈ ran) : f₂.Tells g ⟨[], r.1, r.2⟩ := by
  have distinct : (Frame.ranIds ran).Nodup := waved.distinct.sublist waved.ranIds_sublist
  obtain ⟨id, id_mem, found, input⟩ :=
    Frame.mem_tasks.1 (waved.began.subset (List.mem_map_of_mem mem))
  obtain ⟨node_mem, rfl⟩ := (Graph.node?_eq_some_iff wf).1 found
  have is_ready : f₁.readiness (Plane.ofGraph g) r.1.node.id = .ready := by
    rw [← ready] at id_mem
    exact ((Frame.mem_readyMembers _).1 id_mem).2.2
  obtain ⟨decided, reached⟩ := flat.of_ready wf acyclic is_ready
  have keeps := waved.keeps wf
  refine ⟨rfl, found, ?_, keeps.decided decided, (keeps.reached_iff decided).2 reached, ?_, ?_,
    fun e edge source => ?_⟩
  · rw [waved.settled_eq]
    exact List.mem_append_left _ id_mem
  · exact input.trans (keeps.gather_eq wf flat flat₂ decided).symm
  · rw [waved.frame_eq]
    exact Frame.get?_scope_settleRan distinct mem
  · rw [waved.frame_eq]
    have target : e.2.target ∈ (f₁.dispatch ids).members := flat.members (wf.ends e edge).2
    exact Frame.lookup_settleRan wf edge target distinct mem source

end Waved

/-! ## Results -/

namespace Progress

variable {q : Progress} {ran : List (Task × Ended)} {id : String}

theorem recordRan_cons (q : Progress) (r : Task × Ended) (ran : List (Task × Ended)) :
    q.recordRan (r :: ran) = (q.record r.1.node r.2.execution).recordRan ran := rfl

theorem get?_recordRan_of_not_mem (stranger : id ∉ Frame.ranIds ran) :
    (q.recordRan ran).results.get? id = q.results.get? id := by
  induction ran generalizing q with
  | nil => rfl
  | cons first rest ih =>
      obtain ⟨other, stranger⟩ := not_or.1 (List.mem_cons.not.1 stranger)
      rw [recordRan_cons, ih stranger, get?_record, if_neg other]

/-- A node without a result that runs in a wave has the result of one execution. -/
theorem get?_recordRan (distinct : (Frame.ranIds ran).Nodup) {r : Task × Ended} (mem : r ∈ ran)
    (new : q.results.get? r.1.node.id = none) :
    (q.recordRan ran).results.get? r.1.node.id =
      some (({} : NodeResult).record r.2.execution) := by
  induction ran generalizing q with
  | nil => cases mem
  | cons first rest ih =>
      obtain ⟨alone, distinct⟩ := List.nodup_cons.1 distinct
      rw [recordRan_cons]
      rcases List.mem_cons.1 mem with rfl | mem
      · rw [get?_recordRan_of_not_mem alone, get?_record, if_pos rfl, result, new]
        rfl
      · have other : r.1.node.id ≠ first.1.node.id := fun same =>
          alone (List.mem_map.2 ⟨r, mem, same⟩)
        refine ih distinct mem ?_
        rw [get?_record, if_neg other, new]

end Progress

/-! ## Runs -/

/-- A flat frame runs on: it knows of all members that it settles, and so do the results. -/
structure Flows (g : Graph) (f : Frame) (q : Progress) (ran : List Ran) (f' : Frame)
    (q' : Progress) : Prop where
  flat : f'.Flat g
  keeps : Frame.Keeps g f f'
  distinct : (ran.map Ran.id).Nodup
  fresh : ∀ x ∈ ran, x.id ∉ f.settled
  tells : ∀ x ∈ ran, f'.Tells g x
  passed : ∀ id ∈ f'.settled, id ∉ f.settled → id ∉ ran.map Ran.id → f'.Passed g id
  same : ∀ id, id ∈ f.settled ∨ id ∉ f'.settled → q'.results.get? id = q.results.get? id
  recorded : ∀ x ∈ ran, q'.results.get? x.id = some (({} : NodeResult).record x.ended.execution)
  skipped : ∀ id ∈ f'.settled, id ∉ f.settled → id ∉ ran.map Ran.id →
    q'.results.get? id = some {}

theorem Flows.trans (wf : g.WellFormed) {f f₁ f' : Frame} {q q₁ q' : Progress}
    {ran more : List Ran} (first : Flows g f q ran f₁ q₁) (second : Flows g f₁ q₁ more f' q') :
    Flows g f q (ran ++ more) f' q' where
  flat := second.flat
  keeps := first.keeps.trans second.keeps
  distinct := by
    rw [List.map_append]
    refine List.nodup_append.2 ⟨first.distinct, second.distinct, ?_⟩
    rintro _ before _ after rfl
    obtain ⟨x, x_mem, rfl⟩ := List.mem_map.1 before
    obtain ⟨y, y_mem, same⟩ := List.mem_map.1 after
    exact second.fresh y y_mem (same ▸ (first.tells x x_mem).settled)
  fresh x mem := by
    rcases List.mem_append.1 mem with before | after
    · exact first.fresh x before
    · exact fun settled => second.fresh x after (first.keeps.settled settled)
  tells x mem := by
    rcases List.mem_append.1 mem with before | after
    · exact (first.tells x before).keep wf second.keeps first.flat second.flat
    · exact second.tells x after
  passed id settled new other := by
    rw [List.map_append, List.mem_append, not_or] at other
    by_cases before : id ∈ f₁.settled
    · exact (first.passed id before new other.1).keep second.keeps
    · exact second.passed id settled before other.2
  same id away := by
    rcases away with old | unsettled
    · exact (second.same id (Or.inl (first.keeps.settled old))).trans (first.same id (Or.inl old))
    · have before : id ∉ f₁.settled := fun settled => unsettled (second.keeps.settled settled)
      exact (second.same id (Or.inr unsettled)).trans (first.same id (Or.inr before))
  recorded x mem := by
    rcases List.mem_append.1 mem with before | after
    · rw [second.same x.id (Or.inl (first.tells x before).settled)]
      exact first.recorded x before
    · exact second.recorded x after
  skipped id settled new other := by
    rw [List.map_append, List.mem_append, not_or] at other
    by_cases before : id ∈ f₁.settled
    · rw [second.same id (Or.inl before)]
      exact first.skipped id before new other.1
    · exact second.skipped id settled before other.2

variable {h : Host ω} {request : RunRequest} {f f₁ f₂ f' : Frame} {s s₁ s₂ s' : Ongoing ω}

/-- Skipping what must be skipped. -/
theorem Begun.flows (wf : g.WellFormed) (acyclic : g.Acyclic)
    (begun : Begun request g [] f s f₁ s₁) (flat : f.Flat g)
    (new : ∀ id ∉ f.settled, s.progress.results.get? id = none) :
    Flows g f s.progress [] f₁ s₁.progress := by
  have settled_eq := begun.settled_eq
  obtain ⟨flat₁, keeps, passed⟩ := flat.skipAll wf acyclic
  rw [← begun.frame_eq] at flat₁ keeps passed
  have results (id : String) := Progress.get?_skip s.progress (f.skippedNext (Plane.ofGraph g)) id
  rw [← begun.progress_eq] at results
  refine ⟨flat₁, keeps, List.nodup_nil, by simp, by simp,
    fun id settled fresh _ => passed id settled fresh, fun id away => ?_, by simp,
    fun id settled fresh _ => ?_⟩
  · have unskipped : id ∉ f.skippedNext (Plane.ofGraph g) := by
      intro skipped
      rcases away with old | unsettled
      · exact (begun.sound.mem_skippedNext wf skipped).2 old
      · exact unsettled (settled_eq ▸ List.mem_append_left _ skipped)
    rw [results, if_neg unskipped, Option.or_none]
  · rw [settled_eq, List.mem_append, or_iff_left fresh] at settled
    rw [results, new id fresh, if_pos settled]
    rfl

/-- Running a wave that leaves no region. -/
theorem Waved.flows (wf : g.WellFormed) (acyclic : g.Acyclic) {ids : List String}
    {ran : List (Task × Ended)} (waved : Waved g f₁ s₁ ids ran f₂ s₂)
    (ready : f₁.readyMembers (Plane.ofGraph g) = ids) (flat : f₁.Flat g)
    (goes_on : s₂.stopped = false)
    (single : ∀ r ∈ ran, Frame.regionLeft r.1.node r.2.execution = none)
    (new : ∀ id ∉ f₁.settled, s₁.progress.results.get? id = none) :
    Flows g f₁ s₁.progress (ran.map fun r => ⟨[], r.1, r.2⟩) f₂ s₂.progress := by
  have flat₂ := waved.flat wf flat goes_on single
  have ran_eq := waved.ranIds_eq goes_on
  have distinct : (Frame.ranIds ran).Nodup := ran_eq ▸ waved.distinct
  have map_eq : (ran.map fun r => (⟨[], r.1, r.2⟩ : Ran)).map Ran.id = ids := by
    rw [List.map_map]
    exact ran_eq
  have fresh {r : Task × Ended} (mem : r ∈ ran) : r.1.node.id ∉ f₁.settled :=
    waved.fresh _ (waved.ranIds_sublist.subset (List.mem_map_of_mem mem))
  have no_others (id : String) (settled : id ∈ f₂.settled) (unsettled : id ∉ f₁.settled) :
      id ∈ ids := by
    rw [waved.settled_eq, List.mem_append] at settled
    exact settled.resolve_right unsettled
  refine ⟨flat₂, waved.keeps wf, map_eq ▸ waved.distinct, ?_, ?_, ?_, fun id away => ?_, ?_, ?_⟩
  · intro x mem
    obtain ⟨r, r_mem, rfl⟩ := List.mem_map.1 mem
    exact fresh r_mem
  · intro x mem
    obtain ⟨r, r_mem, rfl⟩ := List.mem_map.1 mem
    exact waved.tells wf acyclic ready flat flat₂ r_mem
  · intro id settled unsettled other
    exact absurd (no_others id settled unsettled) (map_eq ▸ other)
  · have stranger : id ∉ Frame.ranIds ran := by
      rw [ran_eq]
      intro mem
      rcases away with old | unsettled
      · exact waved.fresh id mem old
      · exact unsettled (waved.settled_eq ▸ List.mem_append_left _ mem)
    rw [waved.progress_eq, Progress.get?_recordRan_of_not_mem stranger]
  · intro x mem
    obtain ⟨r, r_mem, rfl⟩ := List.mem_map.1 mem
    rw [waved.progress_eq]
    exact Progress.get?_recordRan distinct r_mem (new _ (fresh r_mem))
  · intro id settled unsettled other
    exact absurd (no_others id settled unsettled) (map_eq ▸ other)

/-- Without iterators a wave leaves no region. -/
theorem regionLeft_eq_none {n : Node} {x : Execution} (can : n.CanComeTo x)
    (kind : n.kind ≠ .iterator) : Frame.regionLeft n x = none := by
  unfold Frame.regionLeft
  split
  · next payloads _ iterates => exact absurd iterates (can.not_iterate kind payloads)
  · rfl

/-- Without iterators the frame of a run that goes on knows at its end of all executions, each of a
node of its own. -/
theorem FrameRun.flows (wf : g.WellFormed) (acyclic : g.Acyclic) (alone : h.LeavesRunsAlone)
    (free : ∀ id, ¬ g.IsIterator id) {place : Place} {events : List Event}
    (frame_run : FrameRun h request g place f s events f' s') (goes_on : s'.stopped = false) :
    place = [] → f.Flat g → (∀ id ∉ f.settled, s.progress.results.get? id = none) →
      Flows g f s.progress (executions events) f' s'.progress := by
  induction frame_run with
  | stopped held stopped => exact Bool.noConfusion (goes_on.symm.trans stopped)
  | finished begun done =>
      rintro rfl flat new
      exact begun.flows wf acyclic flat new
  | @wave place f f₁ f₂ f' s s₁ s₂ s' ids ran events begun ready dispatched next rest ih =>
      rintro rfl flat new
      have waved := begun.waved wf alone ready dispatched next
      have skips := begun.flows wf acyclic flat new
      have new₁ (id : String) (unsettled : id ∉ f₁.settled) :
          s₁.progress.results.get? id = none := by
        rw [skips.same id (Or.inr unsettled)]
        exact new id fun settled => unsettled (skips.keeps.settled settled)
      have single (r : Task × Ended) (mem : r ∈ ran) :
          Frame.regionLeft r.1.node r.2.execution = none := by
        obtain ⟨id, -, found, -⟩ :=
          Frame.mem_tasks.1 (waved.began.subset (List.mem_map_of_mem mem))
        have node_mem := ((Graph.node?_eq_some_iff wf).1 found).1
        have can := canComeTo_of_mem_waveRan alone begun.held₁ (dispatched ▸ mem)
        exact regionLeft_eq_none can fun kind => free _ ⟨r.1.node, node_mem, rfl, kind⟩
      have runs := waved.flows wf acyclic ready skips.flat (rest.goes_on_start alone goes_on)
        single new₁
      have later := ih goes_on rfl runs.flat fun id unsettled => by
        rw [runs.same id (Or.inr unsettled)]
        exact new₁ id fun settled => unsettled (runs.keeps.settled settled)
      have listed : executions (⟨[], .skipped (f.skippedNext (Plane.ofGraph g))⟩ ::
          ⟨[], .dispatched (f₁.tasks (Plane.ofGraph g) ids)⟩ ::
            (ran.map (fun r => ⟨[], .settled r.1 r.2⟩) ++ events)) =
          (ran.map fun r => ⟨[], r.1, r.2⟩) ++ executions events := by
        rw [← executions_map_settled, ← executions_append]
        rfl
      rw [listed]
      exact (skips.trans wf runs).trans wf later
  | region begun pending =>
      rintro rfl flat -
      rw [begun.pending_eq, flat.pending] at pending
      exact absurd pending List.not_mem_nil

end Flowline
