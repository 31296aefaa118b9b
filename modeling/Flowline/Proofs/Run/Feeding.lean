import Flowline.Proofs.Node.Propagation
import Flowline.Proofs.Run.Halting
import Flowline.Proofs.Run.Learning

/-!
# Nodes with a single source

A node all of whose edges come from one node (`Graph.FedOnlyBy`) depends on that node alone: it runs
in the same frame, or in the region of the node if that is an iterator.

* `Frame.Feeds`: the source has run, and the node is still to run.  It will be ready, with the
  output of the source as all that comes in.
* `FrameRun.feeds`: as long as the run goes on, the node is dispatched next in its frame.
* `FrameRun.exists_inWave`: each execution belongs to a wave of its frame, and what follows in the
  frame is a run of the frame behind that wave.
-/

namespace Flowline

variable {ω : Type}

/-! ## In the graph -/

/-- The node has edges into it, and all of them come from the source. -/
structure Graph.FedOnlyBy (g : Graph) (source id : String) : Prop where
  fed : g.incoming id ≠ []
  only : ∀ e ∈ g.incoming id, e.2.source = source

namespace Graph.FedOnlyBy

variable {g : Graph} {u v s I : String} {place : Place}

theorem adj (fed : g.FedOnlyBy u v) : g.Adj u v := by
  obtain ⟨e, mem⟩ := List.exists_mem_of_ne_nil _ fed.fed
  exact fed.only e mem ▸ adj_of_mem_incoming mem

theorem eq_of_adj (fed : g.FedOnlyBy u v) (adj : g.Adj s v) : s = u := by
  obtain ⟨e, edge, rfl, rfl⟩ := adj
  exact fed.only e (mem_incoming.2 ⟨edge, rfl⟩)

/-- What reaches the node is its source, or reaches the source. -/
theorem reaches (fed : g.FedOnlyBy u v) (reaches : g.Reaches s v) : s = u ∨ g.Reaches s u := by
  obtain ⟨m, path, last⟩ := Relation.TransGen.tail'_iff.1 reaches
  rw [fed.eq_of_adj last] at path
  exact (Relation.reflTransGen_iff_eq_or_transGen.1 path).imp_left Eq.symm

/-- An iterator repeats the nodes that it feeds alone. -/
theorem repeats_of_isIterator (fed : g.FedOnlyBy u v) (is : g.IsIterator u) : g.Repeats u v where
  isIterator := is
  reaches := .single fed.adj
  related _ _ reaches := (fed.reaches reaches).imp_right Or.inr

variable (wf : g.WellFormed) (acyclic : g.Acyclic)
include wf acyclic

/-- A node with a single source that is no iterator is a member of the same frames. -/
theorem mem_membersAt (fed : g.FedOnlyBy u v) (other : ¬ g.IsIterator u)
    (member : u ∈ g.membersAt place) : v ∈ g.membersAt place := by
  obtain ⟨candidate, unrepeated⟩ := (Plane.mem_frameMembers wf acyclic).1 member
  have through {I : String} (is : g.IsIterator I) (reaches : g.Reaches I v) : g.Reaches I u :=
    (fed.reaches reaches).resolve_left fun same => other (same ▸ is)
  refine (Plane.mem_frameMembers wf acyclic).2 ⟨?_, fun I I_mem repeats => ?_⟩
  · cases place with
    | nil => exact Reaches.target_mem wf (Relation.TransGen.single fed.adj)
    | cons iteration outer =>
        have around := (Plane.mem_regionOf wf acyclic).1 candidate
        exact (Plane.mem_regionOf wf acyclic).2
          ⟨around.isIterator, around.reaches.tail fed.adj,
            fun J is reaches => around.related J is (through is reaches)⟩
  · have before := through repeats.isIterator repeats.reaches
    exact unrepeated I I_mem (repeats.between before (.single fed.adj))

end Graph.FedOnlyBy

/-! ## In a frame -/

/-- What each item leaves as it is, all of them leave as it is. -/
theorem foldl_eq_of_forall {α β : Type} {step : β → α → β} {b : β} {items : List α}
    (keeps : ∀ a ∈ items, step b a = b) : items.foldl step b = b := by
  induction items with
  | nil => rfl
  | cons a rest ih =>
      rw [List.foldl_cons, keeps a List.mem_cons_self]
      exact ih fun a mem => keeps a (List.mem_cons_of_mem _ mem)

namespace Frame

variable {g : Graph} {place : Place} {f f' f₁ f₂ : Frame} {u v id : String} {data : Json}

/-- No member is settled before a node with an edge to it. -/
def Orderly (g : Graph) (f : Frame) : Prop := ∀ id ∈ f.settled, ∀ s, g.Adj s id → ¬ f.Ahead g s

/-- The source has run and shows its output, and the member that it feeds alone is still to run. -/
structure Feeds (g : Graph) (f : Frame) (u v : String) (data : Json) : Prop where
  fed : g.FedOnlyBy u v
  source : u ∈ f.settled
  idle : ∀ r ∈ f.pending, r.iterator ≠ u
  shown : f.scope.get? u = some data
  taken : ∀ e ∈ g.incoming v, f.edges.lookup e.1 = some .taken
  target : v ∈ f.members
  unsettled : v ∉ f.settled

/-- A region leaves the aggregate of its iterator, and what its iterations left. -/
theorem mem_keys_regionOutputs {r : PendingRegion} {outputs : List (Entries Json)} :
    id ∈ (regionOutputs r outputs).keys ↔
      id = r.iterator ∨ ∃ entries ∈ outputs, id ∈ entries.keys := by
  have keys : (regionOutputs r outputs).keys =
      Entries.keys (outputs.foldl Entries.putAll []) ++ [r.iterator] := List.map_append
  rw [keys, List.mem_append, List.mem_singleton, Entries.mem_keys_foldl_putAll]
  simp [Entries.keys, or_comm]

namespace Feeds

/-- The node is ready. -/
theorem ready (wf : g.WellFormed) (acyclic : g.Acyclic) (feeds : f.Feeds g u v data)
    (sound : f.Sound g place) : f.readiness (Plane.ofGraph g) v = .ready := by
  have member := sound.settled_sub feeds.source
  have verdicts (e : Nat × Edge) (mem : e ∈ g.incoming v) :
      f.verdict e.1 e.2 = .settled .taken := by
    have from_source := feeds.fed.only e mem
    simp [verdict, from_source, sound.shape.get?_nested_of_mem wf acyclic member, member,
      feeds.taken e mem]
  obtain ⟨e, mem⟩ := List.exists_mem_of_ne_nil _ feeds.fed.fed
  rw [readiness_ofGraph, readinessOf_eq_ready_iff]
  refine ⟨fun open_ => ?_, Or.inr ?_⟩
  · obtain ⟨d, d_mem, same⟩ := List.mem_map.1 open_
    exact absurd (same.symm.trans (verdicts d d_mem)) (by simp)
  · exact List.mem_map.2 ⟨e, mem, verdicts e mem⟩

/-- All that comes into the node is the output of its source. -/
theorem gather_eq (feeds : f.Feeds g u v data) :
    f.gather (Plane.ofGraph g) v = [(u, data)] := by
  have active (e : Nat × Edge) (mem : e ∈ g.incoming v) : f.isActive e.1 e.2 = true := by
    simp [isActive, feeds.taken e mem]
  have same : (Plane.ofGraph g).graph.incoming v = g.incoming v := rfl
  unfold gather
  rw [same]
  cases incoming : g.incoming v with
  | nil => exact absurd incoming feeds.fed.fed
  | cons e rest =>
      have from_source (d : Nat × Edge) (mem : d ∈ e :: rest) : d.2.source = u :=
        feeds.fed.only d (incoming ▸ mem)
      rw [incoming] at active
      -- the first edge brings the output, and the others bring nothing new
      rw [List.foldl_cons, active e List.mem_cons_self, from_source e List.mem_cons_self]
      refine (congrArg (List.foldl _ · rest) ?_).trans (foldl_eq_of_forall fun d mem => ?_)
      · rw [feeds.shown]
        rfl
      · rw [from_source d (List.mem_cons_of_mem _ mem)]
        simp [Entries.has]

/-- Skipping what must be skipped does not change that. -/
theorem skipAll (wf : g.WellFormed) (acyclic : g.Acyclic) (feeds : f.Feeds g u v data)
    (sound : f.Sound g place) : (f.skipAll (Plane.ofGraph g)).Feeds g u v data := by
  have kept : (f.skipAll (Plane.ofGraph g)).Sound g place ∧
      (f.skipAll (Plane.ofGraph g)).Feeds g u v data := by
    refine skipAll_induction (motive := fun f' => f'.Sound g place ∧ f'.Feeds g u v data) f
      ⟨sound, feeds⟩ ?_
    rintro f' id ⟨sound, feeds⟩ member skips
    have fresh := not_mem_settled_of_mustSkip skips
    have other : id ≠ v := by
      rintro rfl
      simp [mustSkip, feeds.ready wf acyclic sound] at skips
    refine ⟨sound.skip wf member fresh, feeds.fed, List.mem_cons_of_mem _ feeds.source, feeds.idle,
      feeds.shown, fun e mem => ?_, feeds.target, ?_⟩
    · rw [lookup_skip wf (Graph.mem_incoming.1 mem).1, if_neg, feeds.taken e mem]
      rintro ⟨same, -⟩
      exact fresh (same ▸ feeds.fed.only e mem ▸ feeds.source)
    · rw [show (f'.skip (Plane.ofGraph g) id).settled = id :: f'.settled from rfl, List.mem_cons]
      exact not_or.2 ⟨Ne.symm other, feeds.unsettled⟩
  exact kept.2

/-- A region does not change that either, as it leaves outputs of its own nodes only. -/
theorem settleRegion (wf : g.WellFormed) (acyclic : g.Acyclic) (feeds : f.Feeds g u v data)
    (sound : f.Sound g place) {r : PendingRegion} (pending : r ∈ f.pending)
    {outputs : List (Entries Json)}
    (left : ∀ entries ∈ outputs, entries.keys ⊆ (Plane.ofGraph g).regionOf r.iterator) :
    ((f.takeRegion r.iterator).settleRegion r outputs).Feeds g u v data where
  fed := feeds.fed
  source := feeds.source
  idle r' mem := feeds.idle r' (mem_pending_takeRegion.1 mem).1
  shown := by
    have member := sound.settled_sub feeds.source
    have missing : u ∉ (regionOutputs r outputs).keys := by
      rw [mem_keys_regionOutputs]
      rintro (same | ⟨entries, mem, key⟩)
      · exact feeds.idle r pending same.symm
      · exact sound.shape.not_repeats wf acyclic member (sound.of_pending pending).1
          ((Plane.mem_regionOf wf acyclic).1 (left entries mem key))
    rw [scope_settleRegion, Entries.get?_putAll_of_not_mem missing]
    exact feeds.shown
  taken := feeds.taken
  target := feeds.target
  unsettled := feeds.unsettled

end Feeds

/-! ## Orderly frames -/

theorem Orderly.skipAll (wf : g.WellFormed) (acyclic : g.Acyclic) (orderly : f.Orderly g)
    (sound : f.Sound g place) : (f.skipAll (Plane.ofGraph g)).Orderly g := by
  have kept : (f.skipAll (Plane.ofGraph g)).Sound g place ∧
      (f.skipAll (Plane.ofGraph g)).Orderly g := by
    refine skipAll_induction (motive := fun f' => f'.Sound g place ∧ f'.Orderly g) f
      ⟨sound, orderly⟩ ?_
    rintro f' id ⟨sound, orderly⟩ member skips
    have fresh := not_mem_settled_of_mustSkip skips
    have follows : Follows f' (f'.skip (Plane.ofGraph g) id) :=
      ⟨rfl, rfl, List.subset_cons_self _ _, fun _ mem => Or.inl mem⟩
    refine ⟨sound.skip wf member fresh, fun other settled s adj later => ?_⟩
    rcases List.mem_cons.1 settled with rfl | before
    · have skips : f'.readiness (Plane.ofGraph g) other = .skip := by
        simpa [mustSkip, isSettled, fresh] using skips
      exact sound.not_ahead_of_ne_waiting wf acyclic member (by simp [skips]) adj
        (follows.ahead later)
    · exact orderly other before s adj (follows.ahead later)
  exact kept.2

theorem Orderly.settleRegion (orderly : f.Orderly g) {I : String} {r : PendingRegion}
    {outputs : List (Entries Json)} : ((f.takeRegion I).settleRegion r outputs).Orderly g :=
  fun id settled s adj later => orderly id settled s adj (follows_settleRegion.ahead later)

end Frame

namespace Waved

variable {g : Graph} {place : Place} {f₁ f₂ : Frame} {s₁ s₂ : Ongoing ω} {ids : List String}
  {ran : List (Task × Ended)}

theorem orderly (wf : g.WellFormed) (acyclic : g.Acyclic) (waved : Waved g f₁ s₁ ids ran f₂ s₂)
    (ready : f₁.readyMembers (Plane.ofGraph g) = ids) (sound : f₁.Sound g place)
    (orderly : f₁.Orderly g) : f₂.Orderly g := by
  intro id settled s adj later
  rw [waved.settled_eq] at settled
  rcases List.mem_append.1 settled with now | before
  · exact sound.not_ahead_of_ready wf acyclic (ready ▸ now) adj (waved.follows.ahead later)
  · exact orderly id before s adj (waved.follows.ahead later)

/-- Behind an execution that leaves no region none of its node waits. -/
theorem idle (waved : Waved g f₁ s₁ ids ran f₂ s₂) (sound : f₁.Sound g place) {x : Task × Ended}
    (mem : x ∈ ran) (single : Frame.regionLeft x.1.node x.2.execution = none) :
    ∀ r ∈ f₂.pending, r.iterator ≠ x.1.node.id := by
  intro r waits same
  have began : x.1.node.id ∈ ids := waved.ranIds_sublist.subset (List.mem_map_of_mem mem)
  have distinct : (Frame.ranIds ran).Nodup := waved.distinct.sublist waved.ranIds_sublist
  rw [waved.pending_eq] at waits
  rcases List.mem_append.1 waits with held | left
  · exact waved.fresh _ began (same ▸ sound.pending_settled r held)
  · obtain ⟨y, y_mem, left⟩ := List.mem_filterMap.1 left
    have same_node := (Frame.iterator_regionLeft left).symm.trans same
    obtain rfl : y = x := List.inj_on_of_nodup_map distinct y_mem mem same_node
    exact absurd (single.symm.trans left) (by simp)

/-- An execution that leaves no region and goes on along all edges feeds what it feeds alone. -/
theorem feeds (wf : g.WellFormed) (acyclic : g.Acyclic) (waved : Waved g f₁ s₁ ids ran f₂ s₂)
    (ready : f₁.readyMembers (Plane.ofGraph g) = ids) (sound : f₁.Sound g place)
    (orderly : f₁.Orderly g) {x : Task × Ended} (mem : x ∈ ran) {v : String}
    (fed : g.FedOnlyBy x.1.node.id v) (target : v ∈ f₁.members)
    (along : ∀ e ∈ g.outgoing x.1.node.id, e.1 ∈ g.takenEdges x.1.node x.2.execution)
    (single : Frame.regionLeft x.1.node x.2.execution = none) :
    f₂.Feeds g x.1.node.id v x.2.execution.data := by
  have began : x.1.node.id ∈ ids := waved.ranIds_sublist.subset (List.mem_map_of_mem mem)
  have distinct : (Frame.ranIds ran).Nodup := waved.distinct.sublist waved.ranIds_sublist
  have fresh := waved.fresh _ began
  have ahead : f₁.Ahead g x.1.node.id := Or.inl ⟨waved.members began, fresh⟩
  refine ⟨fed, ?_, waved.idle sound mem single, ?_, fun e into => ?_, ?_, ?_⟩
  · rw [waved.settled_eq]
    exact List.mem_append_left _ began
  · rw [waved.frame_eq]
    exact Frame.get?_scope_settleRan distinct mem
  · obtain ⟨edge, rfl⟩ := Graph.mem_incoming.1 into
    have source := fed.only e into
    rw [waved.frame_eq, Frame.lookup_settleRan (f := f₁.dispatch ids) wf edge target distinct mem
      source, List.contains_iff_mem.2 (along e (Graph.mem_outgoing.2 ⟨edge, source⟩))]
    rfl
  · rw [waved.follows.members]
    exact target
  · rw [waved.settled_eq, List.mem_append]
    rintro (now | before)
    · exact sound.not_ahead_of_ready wf acyclic (ready ▸ now) fed.adj ahead
    · exact orderly v before _ fed.adj ahead

end Waved

/-! ## In a run -/

section

variable {h : Host ω} {request : RunRequest} {g : Graph} {place : Place} {f f' : Frame}
  {s s' : Ongoing ω} {events : List Event}

/-- A frame leaves outputs of its candidates only. -/
theorem FrameRun.outputs_subset (wf : g.WellFormed) (acyclic : g.Acyclic)
    (alone : h.LeavesRunsAlone) (frame_run : FrameRun h request g place f s events f' s')
    (start : f.outputs.keys ⊆ g.candidatesAt place) :
    f'.outputs.keys ⊆ g.candidatesAt place := by
  induction frame_run with
  | stopped held stopped => exact start
  | finished begun done =>
      rw [begun.frame_eq, Frame.skipAll_outputs]
      exact start
  | @wave place f f₁ f₂ f' s s₁ s₂ s' ids ran events begun ready dispatched next rest ih =>
      have waved := begun.waved wf alone ready dispatched next
      have sound := begun.sound₁ wf
      refine ih fun id key => ?_
      rw [waved.frame_eq, Frame.outputs_settleRan, Entries.mem_keys_putAll] at key
      rcases key with old | new
      · rw [begun.frame_eq] at old
        exact start (Frame.skipAll_outputs (Plane.ofGraph g) f ▸ old)
      · obtain ⟨y, y_mem, rfl⟩ := List.mem_map.1 new
        obtain ⟨x, x_mem, rfl⟩ := List.mem_map.1 y_mem
        exact sound.shape.mem_candidates
          (waved.members (waved.ranIds_sublist.subset (List.mem_map_of_mem x_mem)))
  | @region place f f₁ f' s s₁ s' r count states parts frames outputs events begun pending ready
      iterates first each outputs_eq rest each_ih ih =>
      have sound := begun.sound₁ wf
      obtain ⟨candidate, -⟩ := sound.of_pending pending
      refine ih fun id key => ?_
      rw [Frame.outputs_settleRegion, Entries.mem_keys_putAll] at key
      rcases key with old | new
      · rw [begun.frame_eq] at old
        exact start (Frame.skipAll_outputs (Plane.ofGraph g) f ▸ old)
      · rcases Frame.mem_keys_regionOutputs.1 new with rfl | ⟨entries, mem, key⟩
        · exact candidate
        · rw [outputs_eq] at mem
          obtain ⟨k, k_mem, rfl⟩ := List.mem_map.1 mem
          have inside := each_ih k (List.mem_range.1 k_mem) (List.nil_subset _) key
          exact sound.shape.scope.closed _ candidate id ((Plane.mem_regionOf wf acyclic).1 inside)

/-- A node that is fed is dispatched with the output of its source, if the run goes on. -/
theorem FrameRun.feeds (wf : g.WellFormed) (acyclic : g.Acyclic) (alone : h.LeavesRunsAlone)
    (frame_run : FrameRun h request g place f s events f' s') (goes_on : s'.stopped = false)
    {u v : String} {data : Json} (feeds : f.Feeds g u v data) :
    ∃ tasks, ⟨place, .dispatched tasks⟩ ∈ events ∧
      ∃ t ∈ tasks, t.node.id = v ∧ t.input = [(u, data)] := by
  induction frame_run with
  | stopped held stopped => exact Bool.noConfusion (goes_on.symm.trans stopped)
  | finished begun done =>
      have feeds₁ := feeds.skipAll wf acyclic begun.sound
      rw [← begun.frame_eq] at feeds₁
      exact absurd (Frame.unfinished_iff.2 ⟨feeds₁.target, Or.inl feeds₁.unsettled⟩) (done v)
  | @wave place f f₁ f₂ f' s s₁ s₂ s' ids ran events begun ready dispatched next rest ih =>
      have feeds₁ := feeds.skipAll wf acyclic begun.sound
      rw [← begun.frame_eq] at feeds₁
      have sound := begun.sound₁ wf
      have now : v ∈ ids := ready ▸ (Frame.mem_readyMembers _).2
        ⟨feeds₁.target, feeds₁.unsettled, feeds₁.ready wf acyclic sound⟩
      have waved := begun.waved wf alone ready dispatched next
      rw [← waved.tasks] at now
      obtain ⟨t, t_mem, same⟩ := List.mem_map.1 now
      obtain ⟨id, -, found, input⟩ := Frame.mem_tasks.1 t_mem
      obtain ⟨-, rfl⟩ := (Graph.node?_eq_some_iff wf).1 found
      refine ⟨_, by simp, t, t_mem, same, ?_⟩
      rw [input, same]
      exact feeds₁.gather_eq
  | @region place f f₁ f' s s₁ s' r count states parts frames outputs events begun pending ready
      iterates first each outputs_eq rest each_ih ih =>
      have feeds₁ := feeds.skipAll wf acyclic begun.sound
      rw [← begun.frame_eq] at feeds₁
      have left : ∀ entries ∈ outputs, entries.keys ⊆ (Plane.ofGraph g).regionOf r.iterator := by
        intro entries mem
        rw [outputs_eq] at mem
        obtain ⟨k, k_mem, rfl⟩ := List.mem_map.1 mem
        exact (each k (List.mem_range.1 k_mem)).outputs_subset wf acyclic alone
          (List.nil_subset _)
      obtain ⟨tasks, mem, dispatched⟩ := ih goes_on
        (feeds₁.settleRegion wf acyclic (begun.sound₁ wf) pending left)
      exact ⟨tasks, by simp [mem], dispatched⟩

/-! ## The wave of an execution -/

/-- The wave in which an execution was settled, and the run of its frame behind it. -/
structure InWave (h : Host ω) (request : RunRequest) (g : Graph) (place : Place)
    (x : Task × Ended) (later : List Event) (f₁ f₂ : Frame) (s₁ s₂ : Ongoing ω)
    (ids : List String) (ran : List (Task × Ended)) (rest : List Event) : Prop where
  sound : f₁.Sound g place
  orderly : f₁.Orderly g
  held : s₁.world.engine.slotHeld = true
  ready : f₁.readyMembers (Plane.ofGraph g) = ids
  dispatched : waveRan h (request.plan g) f₁ s₁ ids = ran
  waved : Waved g f₁ s₁ ids ran f₂ s₂
  mem : x ∈ ran
  goes_on : ∃ f' s', FrameRun h request g place f₂ s₂ rest f' s' ∧ s'.stopped = false
  rest_subset : rest ⊆ later
  /-- In the frame and inside it nothing else is settled later. -/
  only : ∀ e ∈ later, place <:+ e.place → e ∈ rest ∨ e.settles = []

/-- More that happens elsewhere does not matter. -/
theorem InWave.append {x : Task × Ended} {later more : List Event} {f₁ f₂ : Frame}
    {s₁ s₂ : Ongoing ω} {ids : List String} {ran : List (Task × Ended)} {rest : List Event}
    (in_wave : InWave h request g place x later f₁ f₂ s₁ s₂ ids ran rest)
    (away : ∀ e ∈ more, place <:+ e.place → e.settles = []) :
    InWave h request g place x (later ++ more) f₁ f₂ s₁ s₂ ids ran rest :=
  { in_wave with
    rest_subset := fun _ mem => List.mem_append_left _ (in_wave.rest_subset mem)
    only := fun e mem inside => (List.mem_append.1 mem).elim (fun old => in_wave.only e old inside)
      fun new => Or.inr (away e new inside) }

/-- In a run that goes on each execution belongs to a wave. -/
theorem FrameRun.exists_inWave (wf : g.WellFormed) (acyclic : g.Acyclic)
    (alone : h.LeavesRunsAlone) (frame_run : FrameRun h request g place f s events f' s')
    (goes_on : s'.stopped = false) (orderly : f.Orderly g) {past later : List Event}
    {around : Place} {t : Task} {ended : Ended}
    (split : events = past ++ ⟨around, .settled t ended⟩ :: later) :
    ∃ f₁ f₂ s₁ s₂ ids ran rest,
      InWave h request g around (t, ended) later f₁ f₂ s₁ s₂ ids ran rest := by
  induction frame_run generalizing past later with
  | stopped held stopped => simp at split
  | finished begun done =>
      obtain ⟨past₁, rfl, split₁⟩ := cons_split split (by simp)
      obtain ⟨past₂, rfl, split₂⟩ := cons_split split₁ (by simp)
      simp at split₂
  | @wave place f f₁ f₂ f' s s₁ s₂ s' ids ran events begun ready dispatched next rest ih =>
      have waved := begun.waved wf alone ready dispatched next
      have sound := begun.sound₁ wf
      have orderly₁ : f₁.Orderly g := begun.frame_eq ▸ orderly.skipAll wf acyclic begun.sound
      obtain ⟨past₁, rfl, split₁⟩ := cons_split split (by simp)
      obtain ⟨past₂, rfl, split₂⟩ := cons_split split₁ (by simp)
      rcases append_split split₂ with ⟨after, settled, rfl⟩ | ⟨front, rfl, later_eq⟩
      · obtain ⟨rfl, before, others, ran_eq, rfl, rfl⟩ := settled_split settled
        refine ⟨f₁, f₂, s₁, s₂, ids, ran, events, sound, orderly₁, begun.held₁, ready, dispatched,
          waved, ran_eq ▸ List.mem_append_right _ List.mem_cons_self, ⟨f', s', rest, goes_on⟩,
          List.subset_append_right _ _, fun e mem _ => ?_⟩
        rcases List.mem_append.1 mem with other | mem
        · obtain ⟨y, -, rfl⟩ := List.mem_map.1 other
          exact Or.inr rfl
        · exact Or.inl mem
      · exact ih goes_on (waved.orderly wf acyclic ready sound orderly₁) later_eq
  | @region place f f₁ f' s s₁ s' r count states parts frames outputs events begun pending ready
      iterates first each outputs_eq rest each_ih ih =>
      have sound := begun.sound₁ wf
      have orderly₁ : f₁.Orderly g := begun.frame_eq ▸ orderly.skipAll wf acyclic begun.sound
      obtain ⟨past₁, rfl, split₁⟩ := cons_split split (by simp)
      obtain ⟨past₂, rfl, split₂⟩ := cons_split split₁ (by simp)
      rcases append_split split₂ with ⟨inside, inner, rfl⟩ | ⟨front, rfl, later_eq⟩
      · obtain ⟨k, lt, front, before, rest_k, more, part, rfl, rfl, others⟩ :=
          innerEvents_split inner
        obtain ⟨-, going⟩ := iterates.complete alone (begun.held_first first) each
          (rest.goes_on_start alone goes_on)
        obtain ⟨f₁', f₂', s₁', s₂', ids, ran, rest', in_wave⟩ :=
          each_ih k lt (going k lt) (fun id mem => absurd mem List.not_mem_nil) part
        -- what follows does not come back to this iteration
        have within := within_innerEvents wf acyclic alone each
        have here : (r.iterator, k) :: place <:+ around := within k lt
          ⟨around, .settled t ended⟩ (Or.inr (part ▸ List.mem_append_right _ List.mem_cons_self))
        refine ⟨f₁', f₂', s₁', s₂', ids, ran, rest', ?_⟩
        rw [List.append_assoc]
        refine in_wave.append fun e mem deeper => ?_
        have back := here.trans deeper
        rcases List.mem_append.1 mem with next | mem
        · obtain ⟨j, after, j_lt, there⟩ := others e next
          cases eq_of_suffix_of_length_eq back (within j j_lt e there) rfl
          exact absurd after (Nat.lt_irrefl _)
        · rcases List.mem_cons.1 mem with rfl | mem
          · rfl
          · have touches := rest.touches wf acyclic alone e mem
            exact absurd (touches.unfinished back) (not_unfinished_settleRegion sound pending)
      · obtain ⟨past₃, rfl, split₃⟩ := cons_split later_eq (by simp)
        exact ih goes_on orderly₁.settleRegion split₃

end

end Flowline
