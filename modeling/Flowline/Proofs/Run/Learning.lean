import Flowline.Proofs.Run.Knowledge

/-!
# Frames learn from what they run

Each move of a frame keeps what the frame knows of executions, with the new ones among them.

* `Waved.knows`: a wave of members that were ready.
* `Frame.Knows.settleRegion`: a region that has run, with what its iterations left.
* `Frame.Knows.child`: the frame of an iteration as it begins.
-/

namespace Flowline

variable {ω : Type}

namespace Frame

variable {g : Graph} {place : Place} {f : Frame} {id : String} {p : Plane}
  {ran : List (Task × Ended)}

/-- A member that is settled does not run again in its frame. -/
theorem Sound.not_ahead_of_settled (wf : g.WellFormed) (acyclic : g.Acyclic)
    (sound : f.Sound g place) (settled : id ∈ f.settled) : ¬ f.Ahead g id := by
  rintro (⟨-, unsettled⟩ | ⟨O, unfinished, repeats⟩)
  · exact unsettled settled
  · exact sound.shape.not_repeats wf acyclic (sound.settled_sub settled)
      (sound.shape.mem_candidates unfinished.1) repeats

/-- The iterator of a region that waits is a member, and not finished. -/
theorem Sound.of_pending {r : PendingRegion} (sound : f.Sound g place) (pending : r ∈ f.pending) :
    r.iterator ∈ g.candidatesAt place ∧ f.Unfinished r.iterator := by
  have member := sound.settled_sub (sound.pending_settled r pending)
  exact ⟨sound.shape.mem_candidates member,
    unfinished_iff.2 ⟨member, Or.inr ⟨r, pending, rfl⟩⟩⟩

/-! ## What moves leave -/

/-- The outputs of a wave. -/
def waveOutputs (ran : List (Task × Ended)) : Entries Json :=
  ran.map fun r => (r.1.node.id, r.2.execution.data)

/-- The last outputs of the nodes of a region, and the aggregate of its iterator. -/
def regionOutputs (r : PendingRegion) (outputs : List (Entries Json)) : Entries Json :=
  outputs.foldl Entries.putAll [] ++ [(r.iterator, aggregate r.data outputs)]

theorem outputs_settle (p : Plane) (f : Frame) (n : Node) (x : Execution) :
    (f.settle p n x).outputs = f.outputs.put n.id x.data := by
  rw [settle_eq]
  rfl

theorem scope_settleRan : (f.settleRan p ran).scope = f.scope.putAll (waveOutputs ran) := by
  induction ran generalizing f with
  | nil => rfl
  | cons r rest ih =>
      rw [settleRan_cons, ih, scope_settle]
      rfl

theorem outputs_settleRan : (f.settleRan p ran).outputs = f.outputs.putAll (waveOutputs ran) := by
  induction ran generalizing f with
  | nil => rfl
  | cons r rest ih =>
      rw [settleRan_cons, ih, outputs_settle]
      rfl

variable {r : PendingRegion} {outputs : List (Entries Json)}

theorem scope_settleRegion : ((f.takeRegion r.iterator).settleRegion r outputs).scope =
    f.scope.putAll (regionOutputs r outputs) := by
  rw [regionOutputs, Entries.putAll, List.foldl_append]
  rfl

theorem outputs_settleRegion : ((f.takeRegion r.iterator).settleRegion r outputs).outputs =
    f.outputs.putAll (regionOutputs r outputs) := by
  rw [regionOutputs, Entries.putAll, List.foldl_append]
  rfl

/-- An execution that leaves a region to run goes on along all edges. -/
theorem mem_takenEdges_of_regionLeft {n : Node} {x : Execution} {e : Nat × Edge}
    (left : regionLeft n x = some r) (edge : e ∈ g.edges) (source : e.2.source = n.id) :
    e.1 ∈ g.takenEdges n x := by
  have out : e.1 ∈ (g.outgoing n.id).map (·.1) :=
    List.mem_map_of_mem (Graph.mem_outgoing.2 ⟨edge, source⟩)
  unfold regionLeft at left
  split at left
  · next payloads succeeded iterates =>
      simpa [Graph.takenEdges, Execution.continues, Execution.failed, succeeded, iterates] using out
  · cases left

end Frame

/-! ## Waves -/

section

variable {g : Graph} {place : Place} {f₁ f₂ : Frame} {s₁ s₂ : Ongoing ω} {ids : List String}
  {ran : List (Task × Ended)} {past : List Ran}

theorem Shows.wave {home : String → Place} {m : Entries Json} (shows : Shows past home m)
    (here : ∀ r ∈ ran, home r.1.node.id = place) :
    Shows (past ++ ran.map fun r => ⟨place, r.1, r.2⟩) home
      (m.putAll (Frame.waveOutputs ran)) := by
  refine shows.putAll (fun v mem => ?_) fun x mem _ => ?_
  · obtain ⟨r, r_mem, rfl⟩ := List.mem_map.1 mem
    refine ⟨⟨place, r.1, r.2⟩, List.mem_append_right _ (List.mem_map_of_mem r_mem), rfl, ?_,
      Or.inl rfl⟩
    rw [here r r_mem]
  · obtain ⟨r, r_mem, rfl⟩ := List.mem_map.1 mem
    exact List.mem_map_of_mem (List.mem_map_of_mem r_mem)

/-- A wave of members that were ready keeps what a frame knows. -/
theorem Waved.knows (wf : g.WellFormed) (acyclic : g.Acyclic)
    (waved : Waved g f₁ s₁ ids ran f₂ s₂) (ready : f₁.readyMembers (Plane.ofGraph g) = ids)
    (knows : f₁.Knows g place past) (sound : f₁.Sound g place) (goes_on : s₂.stopped = false) :
    f₂.Knows g place (past ++ ran.map fun r => ⟨place, r.1, r.2⟩) := by
  have ran_eq := waved.ranIds_eq goes_on
  have distinct : (Frame.ranIds ran).Nodup := ran_eq ▸ waved.distinct
  have began {r : Task × Ended} (mem : r ∈ ran) : r.1.node.id ∈ ids :=
    ran_eq ▸ List.mem_map_of_mem mem
  have here (r : Task × Ended) (mem : r ∈ ran) : g.homeOf place r.1.node.id = place :=
    Graph.homeOf_of_candidate (sound.shape.mem_candidates (waved.members (began mem)))
  have ahead {id : String} (mem : id ∈ ids) : f₁.Ahead g id :=
    Or.inl ⟨waved.members mem, waved.fresh id mem⟩
  have strangers {id : String} (other : id ∉ ids) :
      ∀ x ∈ ran.map (fun r => (⟨place, r.1, r.2⟩ : Ran)), x.id ≠ id := by
    rintro x mem rfl
    obtain ⟨r, r_mem, rfl⟩ := List.mem_map.1 mem
    exact other (began r_mem)
  have follows := waved.follows
  have sound₂ := waved.sound wf sound goes_on
  refine ⟨?_, ?_, fun e edge => ?_, fun e edge around => ?_, fun e edge source target => ?_,
    fun id later => ?_, fun id settled s adj later => ?_⟩
  · rw [waved.frame_eq, Frame.scope_settleRan]
    exact knows.scope.wave here
  · rw [waved.frame_eq, Frame.outputs_settleRan]
    exact knows.outputs.wave fun _ _ => rfl
  · rw [waved.frame_eq, Frame.seeded_settleRan]
    exact knows.seeded e edge
  · exact (knows.around e edge around).mono (List.subset_append_left _ _)
  · rw [follows.members] at source target
    rw [waved.frame_eq]
    by_cases now : e.2.source ∈ ids
    · obtain ⟨r, mem, same⟩ := List.mem_map.1 (ran_eq ▸ now : e.2.source ∈ Frame.ranIds ran)
      have lookup := Frame.lookup_settleRan (f := f₁.dispatch ids) wf edge target distinct mem
        same.symm
      have taken : e.1 ∈ g.takenEdges r.1.node r.2.execution ↔
          g.Fired (past ++ ran.map fun r => ⟨place, r.1, r.2⟩) place e := by
        constructor
        · intro goes_along
          refine ⟨⟨place, r.1, r.2⟩, List.mem_append_right _ (List.mem_map_of_mem mem), same, ?_,
            goes_along⟩
          rw [← same, here r mem]
        · rintro ⟨x, x_mem, x_same, inside, goes_along⟩
          rcases List.mem_append.1 x_mem with old | new
          · exact absurd ⟨x, old, x_same, inside⟩ (knows.fresh _ (ahead now))
          · obtain ⟨r', r'_mem, rfl⟩ := List.mem_map.1 new
            have only : r' = r :=
              List.inj_on_of_nodup_map distinct r'_mem mem (x_same.trans same.symm)
            exact only ▸ goes_along
      rw [lookup, ← taken, ← List.contains_iff_mem]
      cases (g.takenEdges r.1.node r.2.execution).contains e.1 with
      | true => exact iff_of_true rfl rfl
      | false => exact iff_of_false (by simp) (by simp)
    · rw [Frame.lookup_settleRan_of_not_mem wf edge (ran_eq ▸ now),
        Graph.fired_append (strangers now)]
      exact knows.edges e edge source target
  · have other : id ∉ ids := fun mem =>
      sound₂.not_ahead_of_settled wf acyclic (waved.settled_eq ▸ List.mem_append_left _ mem) later
    rw [Graph.executed_append (strangers other)]
    exact knows.fresh id (follows.ahead later)
  · rw [waved.settled_eq] at settled
    rcases List.mem_append.1 settled with now | before
    · exact sound.not_ahead_of_ready wf acyclic (ready ▸ now) adj (follows.ahead later)
    · exact knows.behind id before s adj (follows.ahead later)

end

/-! ## Regions -/

/-- The iterator of a region that waits was executed, and left the region. -/
def Iterated (past : List Ran) (place : Place) (r : PendingRegion) : Prop :=
  ∃ t ended, ⟨place, t, ended⟩ ∈ past ∧ Frame.regionLeft t.node ended.execution = some r

/-- The outputs of the iterations of a region are what the executions in them left, and there is
one for each execution. -/
structure LeavesBehind (inner : List Ran) (place : Place) (outputs : List (Entries Json)) : Prop where
  left : ∀ entries ∈ outputs, ∀ v ∈ entries,
    ∃ x ∈ inner, x.id = v.1 ∧ place <:+ x.place ∧ x.Left v.2
  all : ∀ x ∈ inner, ∃ entries ∈ outputs, x.id ∈ entries.keys

section

variable {g : Graph} {place : Place} {f : Frame} {past inner : List Ran} {r : PendingRegion}
  {outputs : List (Entries Json)}

/-- The iterator as an execution. -/
theorem Iterated.exists_ran (iterated : Iterated past place r) :
    ∃ x ∈ past, x.id = r.iterator ∧ x.place = place ∧
      Frame.regionLeft x.task.node x.ended.execution = some r := by
  obtain ⟨t, ended, mem, left⟩ := iterated
  exact ⟨_, mem, (Frame.iterator_regionLeft left).symm, rfl, left⟩

theorem Shows.region {home : String → Place} {m : Entries Json} (shows : Shows past home m)
    (iterated : Iterated past place r) (inside : ∀ x ∈ inner, g.Repeats r.iterator x.id)
    (here : ∀ id, g.InUnit r.iterator id → home id = place)
    (leaves : LeavesBehind inner place outputs) :
    Shows (past ++ inner) home (m.putAll (Frame.regionOutputs r outputs)) := by
  refine shows.putAll (fun v mem => ?_) fun x mem _ => ?_
  · rcases List.mem_append.1 mem with latest | aggregated
    · rcases Entries.mem_foldl_putAll latest with nothing | ⟨entries, entries_mem, v_mem⟩
      · exact absurd nothing List.not_mem_nil
      · obtain ⟨x, x_mem, same, within, is_left⟩ := leaves.left entries entries_mem v v_mem
        refine ⟨x, List.mem_append_right _ x_mem, same, ?_, is_left⟩
        rw [here v.1 (Or.inr (same ▸ inside x x_mem))]
        exact within
    · obtain ⟨x, x_mem, same, at_place, is_left⟩ := iterated.exists_ran
      rw [List.mem_singleton.1 aggregated]
      refine ⟨x, List.mem_append_left _ x_mem, same, ?_, Or.inr (by rw [is_left]; rfl)⟩
      rw [here r.iterator (Or.inl rfl), at_place]
  · rw [Frame.regionOutputs, Entries.keys, List.map_append]
    exact List.mem_append_left _ (Entries.mem_keys_foldl_putAll.2 (Or.inr (leaves.all x mem)))

end

namespace Frame

variable {g : Graph} {place : Place} {f : Frame} {past inner : List Ran} {r : PendingRegion}
  {outputs : List (Entries Json)} {k : Nat} (wf : g.WellFormed) (acyclic : g.Acyclic)
include wf acyclic

/-- The end of a region keeps what a frame knows. -/
theorem Knows.settleRegion (knows : f.Knows g place past) (sound : f.Sound g place)
    (pending : r ∈ f.pending) (iterated : Iterated past place r)
    (inside : ∀ x ∈ inner, g.Repeats r.iterator x.id)
    (leaves : LeavesBehind inner place outputs) :
    ((f.takeRegion r.iterator).settleRegion r outputs).Knows g place (past ++ inner) := by
  obtain ⟨candidate, -⟩ := sound.of_pending pending
  have here (id : String) (unit : g.InUnit r.iterator id) : g.homeOf place id = place := by
    refine Graph.homeOf_of_candidate ?_
    rcases unit with rfl | repeats
    · exact candidate
    · exact sound.shape.scope.closed _ candidate id repeats
  have follows : Follows f ((f.takeRegion r.iterator).settleRegion r outputs) :=
    follows_settleRegion
  refine ⟨?_, ?_, knows.seeded, fun e edge around => ?_, fun e edge source target => ?_,
    fun id later executed => ?_, fun id settled s adj later => ?_⟩
  · rw [scope_settleRegion]
    exact knows.scope.region iterated inside here leaves
  · rw [outputs_settleRegion]
    exact knows.outputs.region iterated inside (fun _ _ => rfl) leaves
  · exact (knows.around e edge around).mono (List.subset_append_left _ _)
  · have strangers : ∀ x ∈ inner, x.id ≠ e.2.source := fun x mem same =>
      sound.shape.not_repeats wf acyclic source candidate (same ▸ inside x mem)
    rw [Graph.fired_append strangers]
    exact knows.edges e edge source target
  · have strangers : ∀ x ∈ inner, x.id ≠ id := fun x mem same =>
      not_ahead_settleRegion wf acyclic sound pending (Or.inr (same ▸ inside x mem)) later
    rw [Graph.executed_append strangers] at executed
    exact knows.fresh id (follows.ahead later) executed
  · exact knows.behind id settled s adj (follows.ahead later)

/-- What the frame of an iteration knows as it begins. -/
theorem Knows.child (knows : f.Knows g place past) (sound : f.Sound g place)
    (pending : r ∈ f.pending) (iterated : Iterated past place r)
    (inside : ∀ x ∈ inner, g.Repeats r.iterator x.id)
    (untouched : ∀ x ∈ past ++ inner, ¬ (r.iterator, k) :: place <:+ x.place) :
    (g.childFrame f r k).Knows g ((r.iterator, k) :: place) (past ++ inner) := by
  obtain ⟨candidate, unfinished⟩ := sound.of_pending pending
  have sound_child : (g.childFrame f r k).Sound g ((r.iterator, k) :: place) :=
    .iterationFrame wf acyclic _ _ _ _
  have ahead {id : String} (in_region : id ∈ (Plane.ofGraph g).regionOf r.iterator) :
      f.Ahead g id :=
    Or.inr ⟨r.iterator, unfinished, (Plane.mem_regionOf wf acyclic).1 in_region⟩
  -- Nothing of the region has been executed in this iteration.
  have unexecuted {id : String} (in_region : id ∈ (Plane.ofGraph g).regionOf r.iterator) :
      ¬ g.Executed (past ++ inner) ((r.iterator, k) :: place) id := by
    rintro ⟨x, mem, -, within⟩
    rw [Graph.homeOf_of_candidate in_region] at within
    exact untouched x mem within
  obtain ⟨x, x_mem, x_id, x_place, x_left⟩ := iterated.exists_ran
  have outside : r.iterator ∉ (Plane.ofGraph g).regionOf r.iterator := fun in_region =>
    ((Plane.mem_regionOf wf acyclic).1 in_region).ne acyclic rfl
  have iterator_home : g.homeOf ((r.iterator, k) :: place) r.iterator = place := by
    rw [Graph.homeOf_cons_of_not_mem outside, Graph.homeOf_of_candidate candidate]
  refine ⟨⟨fun v mem => ?_, fun y mem within => ?_⟩, ⟨fun v mem => ?_, fun y mem within => ?_⟩,
    fun e edge => ?_, fun e edge around => ?_, fun e edge source target => ?_,
    fun id later => ?_, fun id settled => absurd settled List.not_mem_nil⟩
  · rcases Entries.mem_put (m := f.scope) mem with old | new
    · obtain ⟨y, y_mem, same, within, is_left⟩ := knows.scope.left v old
      have elsewhere : v.1 ∉ (Plane.ofGraph g).regionOf r.iterator := fun in_region =>
        knows.fresh v.1 (ahead in_region) ⟨y, y_mem, same, within⟩
      refine ⟨y, List.mem_append_left _ y_mem, same, ?_, is_left⟩
      rw [Graph.homeOf_cons_of_not_mem elsewhere]
      exact within
    · rw [new]
      refine ⟨x, List.mem_append_left _ x_mem, x_id, ?_, Or.inr (by rw [x_left]; rfl)⟩
      rw [iterator_home, x_place]
  · by_cases in_region : y.id ∈ (Plane.ofGraph g).regionOf r.iterator
    · exact absurd ⟨y, mem, rfl, within⟩ (unexecuted in_region)
    · rw [Graph.homeOf_cons_of_not_mem in_region] at within
      rcases List.mem_append.1 mem with old | new
      · exact Entries.mem_keys_put.2 (Or.inr (knows.scope.all y old within))
      · exact absurd ((Plane.mem_regionOf wf acyclic).2 (inside y new)) in_region
  · exact absurd mem List.not_mem_nil
  · exact absurd within (untouched y mem)
  · have seeded : e.1 ∈ (g.childFrame f r k).seeded ↔ e.2.source = r.iterator := by
      constructor
      · intro mem
        obtain ⟨d, d_mem, same⟩ := List.mem_map.1 mem
        rw [Graph.mem_outgoing] at d_mem
        rw [← wf.eq_of_number d_mem.1 edge same]
        exact d_mem.2
      · exact fun source => List.mem_map_of_mem (Graph.mem_outgoing.2 ⟨edge, source⟩)
    rw [seeded]
    exact ⟨fun same => congrArg some same.symm, fun same => (Option.some.inj same).symm⟩
  · have source : e.2.source = r.iterator := (Option.some.inj around).symm
    refine ⟨x, List.mem_append_left _ x_mem, x_id.trans source.symm, ?_,
      mem_takenEdges_of_regionLeft x_left edge (source.trans x_id.symm)⟩
    rw [source, iterator_home, x_place]
  · refine iff_of_false (fun taken => by cases taken) fun fired => ?_
    exact unexecuted (sound_child.shape.mem_candidates source) fired.executed
  · exact unexecuted (sound_child.candidate_of_ahead later)

end Frame

end Flowline
