import Flowline.Proofs.Run.Sound

/-!
# Moves keep frames sound

What each move of a frame does to what the frame knows: skipping, settling what a wave came to, and
taking the end of a region in.  `Frame.Follows` is what all moves have in common, so that nothing
that is behind a frame gets ahead of it again (`Frame.Follows.ahead`).

* `Frame.Sound.skipAll`, `Frame.Sound.settleRan`, `Frame.Sound.settleRegion`: the frame after a move
  is sound.
* `Frame.not_mustSkip_skipAll`: skipping goes on until nothing is left that must be skipped.
-/

namespace Flowline

namespace Frame

/-- The frame is the same one, after some moves. -/
structure Follows (f f' : Frame) : Prop where
  members : f'.members = f.members
  iteration : f'.iteration = f.iteration
  settled : f.settled ⊆ f'.settled
  pending : ∀ r ∈ f'.pending, r ∈ f.pending ∨ r.iterator ∉ f.settled

variable {g : Graph} {place : Place} {f f' f'' : Frame} {id : String}

theorem Follows.refl (f : Frame) : Follows f f where
  members := rfl
  iteration := rfl
  settled := fun _ mem => mem
  pending := fun _ mem => Or.inl mem

theorem Follows.trans (first : Follows f f') (second : Follows f' f'') : Follows f f'' where
  members := second.members.trans first.members
  iteration := second.iteration.trans first.iteration
  settled := fun _ mem => second.settled (first.settled mem)
  pending r mem := by
    rcases second.pending r mem with held | fresh
    · exact first.pending r held
    · exact Or.inr fun settled => fresh (first.settled settled)

/-- What is unfinished later was unfinished before. -/
theorem Follows.unfinished (follows : Follows f f') {u : String} (later : f'.Unfinished u) :
    f.Unfinished u := by
  obtain ⟨member, fresh | ⟨r, r_mem, rfl⟩⟩ := unfinished_iff.1 later
  · rw [follows.members] at member
    exact unfinished_iff.2 ⟨member, Or.inl fun settled => fresh (follows.settled settled)⟩
  · rw [follows.members] at member
    rcases follows.pending r r_mem with held | fresh
    · exact unfinished_iff.2 ⟨member, Or.inr ⟨r, held, rfl⟩⟩
    · exact unfinished_iff.2 ⟨member, Or.inl fresh⟩

/-- What is behind a frame stays behind it. -/
theorem Follows.ahead (follows : Follows f f') (later : f'.Ahead g id) : f.Ahead g id := by
  rcases later with ⟨member, fresh⟩ | ⟨O, unfinished, repeats⟩
  · rw [follows.members] at member
    exact Or.inl ⟨member, fun settled => fresh (follows.settled settled)⟩
  · exact Or.inr ⟨O, follows.unfinished unfinished, repeats⟩

/-! ## Skipping -/

/-- What holds of a frame and is kept by each skip holds when all skips are done. -/
theorem skipAll_induction {p : Plane} {motive : Frame → Prop} (f : Frame) (start : motive f)
    (step : ∀ f id, motive f → id ∈ f.members → f.mustSkip p id = true → motive (f.skip p id)) :
    motive (f.skipAll p) := by
  induction f using skipAll.induct p with
  | case1 f none_left =>
      rw [skipAll]
      split
      · exact start
      · next found => rw [none_left] at found; cases found
  | case2 f id found _ ih =>
      rw [skipAll]
      split
      · next none_left => rw [none_left] at found; cases found
      · next other found' =>
          rw [found] at found'
          cases found'
          exact ih (step f id start (List.mem_of_find?_eq_some found) (List.find?_some found))

theorem not_mustSkip_skipAll (p : Plane) (f : Frame) :
    ∀ id ∈ (f.skipAll p).members, (f.skipAll p).mustSkip p id = false := by
  induction f using skipAll.induct p with
  | case1 f none_left =>
      have same : f.skipAll p = f := by
        rw [skipAll]
        split
        · rfl
        · next found => rw [none_left] at found; cases found
      rw [same]
      intro id mem
      simpa using List.find?_eq_none.1 none_left id mem
  | case2 f id found _ ih =>
      have same : f.skipAll p = (f.skip p id).skipAll p := by
        conv_lhs => rw [skipAll]
        split
        · next none_left => rw [none_left] at found; cases found
        · next other found' =>
            rw [found] at found'
            cases found'
            rfl
      rw [same]
      exact ih

theorem not_mem_settled_of_mustSkip {p : Plane} (skips : f.mustSkip p id = true) :
    id ∉ f.settled := by
  intro settled
  simp [mustSkip, isSettled, settled] at skips

theorem lookup_skip (wf : g.WellFormed) {e : Nat × Edge} (edge : e ∈ g.edges) :
    (f.skip (Plane.ofGraph g) id).edges.lookup e.1 =
      if e.2.source = id ∧ e.2.target ∈ f.members then some .skipped
      else f.edges.lookup e.1 := by
  have within : e.1 ∈ (Plane.ofGraph g).edgesWithin f id ↔
      e.2.source = id ∧ e.2.target ∈ f.members := mem_edgesWithin wf edge
  unfold skip
  rw [lookup_settleEdges]
  exact if_congr within rfl rfl

theorem Sound.skip (wf : g.WellFormed) (sound : f.Sound g place) (member : id ∈ f.members)
    (fresh : id ∉ f.settled) : (f.skip (Plane.ofGraph g) id).Sound g place where
  shape := sound.shape.of_eq rfl rfl
  iteration := sound.iteration
  seeded := sound.seeded
  settled_sub := List.cons_subset.2 ⟨member, sound.settled_sub⟩
  settled_nodup := List.nodup_cons.2 ⟨fresh, sound.settled_nodup⟩
  pending_nodup := sound.pending_nodup
  pending_settled r mem := List.mem_cons_of_mem _ (sound.pending_settled r mem)
  edges e edge source target := by
    have before := sound.edges e edge source target
    have settled : (f.skip (Plane.ofGraph g) id).settled = id :: f.settled := rfl
    rw [settled, lookup_skip wf edge, List.mem_cons]
    by_cases same : e.2.source = id
    · exact iff_of_true (by rw [if_pos ⟨same, target⟩, Option.isSome_some]) (Or.inl same)
    · rw [if_neg fun h => same h.1, before]
      exact (or_iff_right same).symm

/-- Skipping everything that must be skipped keeps a frame sound, and settles members only. -/
theorem Sound.skipAll (wf : g.WellFormed) (sound : f.Sound g place) :
    (f.skipAll (Plane.ofGraph g)).Sound g place :=
  skipAll_induction f sound fun _ _ sound member skips =>
    sound.skip wf member (not_mem_settled_of_mustSkip skips)

theorem follows_skipAll (p : Plane) (f : Frame) : Follows f (f.skipAll p) :=
  skipAll_induction f (Follows.refl f) fun _ _ follows _ _ =>
    follows.trans
      { members := rfl
        iteration := rfl
        settled := List.subset_cons_self _ _
        pending := fun _ mem => Or.inl mem }

theorem skipAll_pending (p : Plane) (f : Frame) : (f.skipAll p).pending = f.pending :=
  skipAll_induction (motive := fun f' => f'.pending = f.pending) f rfl fun _ _ same _ _ => same

theorem skipAll_scope (p : Plane) (f : Frame) : (f.skipAll p).scope = f.scope :=
  skipAll_induction (motive := fun f' => f'.scope = f.scope) f rfl fun _ _ same _ _ => same

theorem skipAll_outputs (p : Plane) (f : Frame) : (f.skipAll p).outputs = f.outputs :=
  skipAll_induction (motive := fun f' => f'.outputs = f.outputs) f rfl fun _ _ same _ _ => same

/-- The members that are skipped next. -/
def skippedNext (p : Plane) (f : Frame) : List String :=
  (f.skipAll p).settled.filter fun id => !f.isSettled id

theorem settled_skipAll (p : Plane) (f : Frame) :
    (f.skipAll p).settled = f.skippedNext p ++ f.settled := by
  have grown : ∃ new, (f.skipAll p).settled = new ++ f.settled ∧ ∀ id ∈ new, id ∉ f.settled :=
    skipAll_induction (motive := fun f' => ∃ new, f'.settled = new ++ f.settled ∧
        ∀ id ∈ new, id ∉ f.settled) f ⟨[], rfl, by simp⟩ fun f' id grown _ skips => by
      obtain ⟨new, settled, fresh⟩ := grown
      refine ⟨id :: new, congrArg (id :: ·) settled, ?_⟩
      intro other mem
      rcases List.mem_cons.1 mem with rfl | mem
      · have unsettled := not_mem_settled_of_mustSkip skips
        rw [settled, List.mem_append, not_or] at unsettled
        exact unsettled.2
      · exact fresh other mem
  obtain ⟨new, settled, fresh⟩ := grown
  have old : f.settled.filter (fun id => !f.isSettled id) = [] := by
    simp [List.filter_eq_nil_iff, isSettled]
  have all : new.filter (fun id => !f.isSettled id) = new := by
    refine List.filter_eq_self.2 fun id mem => ?_
    simp [isSettled, fresh id mem]
  rw [skippedNext, settled, List.filter_append, old, all, List.append_nil]

/-- What is skipped next are members that were not settled. -/
theorem Sound.mem_skippedNext (wf : g.WellFormed) (sound : f.Sound g place)
    (mem : id ∈ f.skippedNext (Plane.ofGraph g)) : id ∈ f.members ∧ id ∉ f.settled := by
  obtain ⟨settled, fresh⟩ := List.mem_filter.1 mem
  have member := (sound.skipAll wf).settled_sub settled
  rw [(follows_skipAll (Plane.ofGraph g) f).members] at member
  exact ⟨member, by simpa [isSettled] using fresh⟩

theorem Sound.skippedNext_subset (wf : g.WellFormed) (sound : f.Sound g place) :
    f.skippedNext (Plane.ofGraph g) ⊆ f.members := fun _ mem => (sound.mem_skippedNext wf mem).1

/-! ## Waves -/

/-- The region that an execution leaves to run. -/
def regionLeft (n : Node) (x : Execution) : Option PendingRegion :=
  match x.error, x.propagation with
  | none, .iterate payloads => some { iterator := n.id, data := x.data, payloads }
  | _, _ => none

theorem iterator_regionLeft {n : Node} {x : Execution} {r : PendingRegion}
    (left : regionLeft n x = some r) : r.iterator = n.id := by
  unfold regionLeft at left
  split at left
  · cases left
    rfl
  · cases left

theorem settle_eq (p : Plane) (f : Frame) (n : Node) (x : Execution) :
    f.settle p n x =
      { (f.addOutput n.id x.data).settleBehind p n x with
        pending := f.pending ++ (regionLeft n x).toList } := by
  unfold settle postpone regionLeft
  cases x.error with
  | none =>
      cases x.propagation with
      | iterate payloads => rfl
      | all | suppress | branch => simp [settleBehind, settleEdges, addOutput]
  | some message => simp [settleBehind, settleEdges, addOutput]

section

variable (p : Plane) (f : Frame) (n : Node) (x : Execution)

theorem pending_settle :
    (f.settle p n x).pending = f.pending ++ (regionLeft n x).toList := by
  rw [settle_eq]

theorem edges_settle :
    (f.settle p n x).edges = ((f.addOutput n.id x.data).settleBehind p n x).edges := by
  rw [settle_eq]

@[simp] theorem members_settle : (f.settle p n x).members = f.members := by
  rw [settle_eq]
  rfl

@[simp] theorem nested_settle : (f.settle p n x).nested = f.nested := by
  rw [settle_eq]
  rfl

@[simp] theorem seeded_settle : (f.settle p n x).seeded = f.seeded := by
  rw [settle_eq]
  rfl

@[simp] theorem iteration_settle : (f.settle p n x).iteration = f.iteration := by
  rw [settle_eq]
  rfl

@[simp] theorem settled_settle : (f.settle p n x).settled = f.settled := by
  rw [settle_eq]
  rfl

theorem scope_settle : (f.settle p n x).scope = f.scope.put n.id x.data := by
  rw [settle_eq]
  rfl

end

/-- Settling an execution settles the edges from its node to members, and no others. -/
theorem lookup_settle (wf : g.WellFormed) {e : Nat × Edge} (edge : e ∈ g.edges) (n : Node)
    (x : Execution) :
    (f.settle (Plane.ofGraph g) n x).edges.lookup e.1 =
      if e.2.source = n.id ∧ e.2.target ∈ f.members
      then some (if (g.takenEdges n x).contains e.1 then .taken else .skipped)
      else f.edges.lookup e.1 := by
  have within : e.1 ∈ (Plane.ofGraph g).edgesWithin (f.addOutput n.id x.data) n.id ↔
      e.2.source = n.id ∧ e.2.target ∈ f.members := mem_edgesWithin wf edge
  rw [edges_settle, settleBehind, lookup_settleEdges]
  exact if_congr within rfl rfl

/-- Settle what the nodes of a wave came to, in order. -/
def settleRan (p : Plane) (f : Frame) (ran : List (Task × Ended)) : Frame :=
  ran.foldl (fun f r => f.settle p r.1.node r.2.execution) f

/-- The nodes that ran. -/
def ranIds (ran : List (Task × Ended)) : List String := ran.map (·.1.node.id)

theorem settleRan_cons (p : Plane) (f : Frame) (r : Task × Ended) (ran : List (Task × Ended)) :
    f.settleRan p (r :: ran) = (f.settle p r.1.node r.2.execution).settleRan p ran := rfl

/-- What settling keeps is kept when a wave is settled. -/
theorem settleRan_induction {p : Plane} {motive : Frame → Prop} (ran : List (Task × Ended))
    (start : motive f) (step : ∀ f n x, motive f → motive (f.settle p n x)) :
    motive (f.settleRan p ran) := by
  induction ran generalizing f with
  | nil => exact start
  | cons r rest ih => exact ih (step f _ _ start)

variable (p : Plane) (ran : List (Task × Ended))

@[simp] theorem members_settleRan : (f.settleRan p ran).members = f.members :=
  settleRan_induction (motive := fun f' => f'.members = f.members) ran rfl fun f' n x same =>
    (members_settle p f' n x).trans same

@[simp] theorem nested_settleRan : (f.settleRan p ran).nested = f.nested :=
  settleRan_induction (motive := fun f' => f'.nested = f.nested) ran rfl fun f' n x same =>
    (nested_settle p f' n x).trans same

@[simp] theorem seeded_settleRan : (f.settleRan p ran).seeded = f.seeded :=
  settleRan_induction (motive := fun f' => f'.seeded = f.seeded) ran rfl fun f' n x same =>
    (seeded_settle p f' n x).trans same

@[simp] theorem iteration_settleRan : (f.settleRan p ran).iteration = f.iteration :=
  settleRan_induction (motive := fun f' => f'.iteration = f.iteration) ran rfl fun f' n x same =>
    (iteration_settle p f' n x).trans same

@[simp] theorem settled_settleRan : (f.settleRan p ran).settled = f.settled :=
  settleRan_induction (motive := fun f' => f'.settled = f.settled) ran rfl fun f' n x same =>
    (settled_settle p f' n x).trans same

theorem pending_settleRan : (f.settleRan p ran).pending =
    f.pending ++ ran.filterMap fun r => regionLeft r.1.node r.2.execution := by
  induction ran generalizing f with
  | nil => exact (List.append_nil _).symm
  | cons r rest ih =>
      rw [settleRan_cons, ih, pending_settle, List.append_assoc, List.filterMap_cons]
      cases regionLeft r.1.node r.2.execution <;> rfl

theorem isSome_lookup_settleRan (wf : g.WellFormed) {e : Nat × Edge} (edge : e ∈ g.edges)
    (target : e.2.target ∈ f.members) :
    ((f.settleRan (Plane.ofGraph g) ran).edges.lookup e.1).isSome ↔
      (f.edges.lookup e.1).isSome ∨ e.2.source ∈ ranIds ran := by
  induction ran generalizing f with
  | nil => simp [settleRan, ranIds]
  | cons r rest ih =>
      rw [settleRan_cons, ih (by simpa using target), lookup_settle wf edge]
      by_cases same : e.2.source = r.1.node.id
      · simp [ranIds, same, target]
      · simp [ranIds, same]

/-- A region that a wave leaves belongs to a node that ran. -/
theorem iterator_mem_ranIds {r : PendingRegion}
    (left : r ∈ ran.filterMap fun r => regionLeft r.1.node r.2.execution) :
    r.iterator ∈ ranIds ran := by
  obtain ⟨t, mem, left⟩ := List.mem_filterMap.1 left
  rw [iterator_regionLeft left]
  exact List.mem_map_of_mem mem

theorem iterators_regionLeft_sublist :
    ((ran.filterMap fun r => regionLeft r.1.node r.2.execution).map (·.iterator)).Sublist
      (ranIds ran) := by
  induction ran with
  | nil => exact .slnil
  | cons r rest ih =>
      rw [List.filterMap_cons]
      cases left : regionLeft r.1.node r.2.execution with
      | none => exact ih.cons _
      | some region =>
          have same := iterator_regionLeft left
          simp only [ranIds, List.map_cons, same] at ih ⊢
          exact ih.cons_cons _

variable {ids : List String} {ran}

/-- What ran in a wave belongs to the frame afterwards. -/
theorem follows_settleRan (fresh : ∀ id ∈ ids, id ∉ f.settled) (began : ranIds ran ⊆ ids) :
    Follows f ((f.dispatch ids).settleRan p ran) where
  members := members_settleRan p ran
  iteration := iteration_settleRan p ran
  settled := by
    rw [settled_settleRan]
    exact List.subset_append_right _ _
  pending r mem := by
    rw [pending_settleRan] at mem
    rcases List.mem_append.1 mem with held | left
    · exact Or.inl held
    · exact Or.inr (fresh _ (began (iterator_mem_ranIds ran left)))

/-- A wave of members that all ran to their end keeps a frame sound. -/
theorem Sound.settleRan (wf : g.WellFormed) (sound : f.Sound g place) (distinct : ids.Nodup)
    (members : ids ⊆ f.members) (fresh : ∀ id ∈ ids, id ∉ f.settled) (all : ranIds ran = ids) :
    ((f.dispatch ids).settleRan (Plane.ofGraph g) ran).Sound g place where
  shape := sound.shape.of_eq (members_settleRan _ ran) (nested_settleRan _ ran)
  iteration := (iteration_settleRan _ ran).trans sound.iteration
  seeded := by
    rw [seeded_settleRan]
    exact sound.seeded
  settled_sub := by
    rw [settled_settleRan, members_settleRan]
    exact List.append_subset.2 ⟨members, sound.settled_sub⟩
  settled_nodup := by
    rw [settled_settleRan]
    refine List.nodup_append.2 ⟨distinct, sound.settled_nodup, ?_⟩
    rintro id mem _ settled rfl
    exact fresh id mem settled
  pending_nodup := by
    rw [pending_settleRan, List.map_append]
    refine List.nodup_append.2 ⟨sound.pending_nodup, ?_, ?_⟩
    · exact (all ▸ distinct).sublist (iterators_regionLeft_sublist ran)
    · rintro _ held _ left rfl
      obtain ⟨r, r_mem, rfl⟩ := List.mem_map.1 held
      refine fresh _ ?_ (sound.pending_settled r r_mem)
      exact all ▸ (iterators_regionLeft_sublist ran).subset left
  pending_settled r mem := by
    rw [settled_settleRan]
    rw [pending_settleRan] at mem
    rcases List.mem_append.1 mem with held | left
    · exact List.mem_append_right _ (sound.pending_settled r held)
    · exact List.mem_append_left _ (all ▸ iterator_mem_ranIds ran left)
  edges e edge source target := by
    rw [members_settleRan] at source target
    rw [settled_settleRan, isSome_lookup_settleRan ran wf edge target, all]
    have before := sound.edges e edge source target
    simp only [dispatch, List.mem_append, before]
    exact or_comm

/-! ## Regions -/

variable {I : String} {r : PendingRegion} {outputs : List (Entries Json)}

theorem mem_pending_takeRegion :
    r ∈ (f.takeRegion I).pending ↔ r ∈ f.pending ∧ r.iterator ≠ I := by
  simp [takeRegion]

theorem follows_settleRegion : Follows f ((f.takeRegion I).settleRegion r outputs) where
  members := rfl
  iteration := rfl
  settled := fun _ mem => mem
  pending _ mem := Or.inl (mem_pending_takeRegion.1 mem).1

/-- Taking the end of a region in keeps a frame sound. -/
theorem Sound.settleRegion (sound : f.Sound g place) :
    ((f.takeRegion I).settleRegion r outputs).Sound g place where
  shape := sound.shape.of_eq rfl rfl
  iteration := sound.iteration
  seeded := sound.seeded
  settled_sub := sound.settled_sub
  settled_nodup := sound.settled_nodup
  pending_nodup := sound.pending_nodup.sublist (List.Sublist.map _ List.filter_sublist)
  pending_settled r mem := sound.pending_settled r (mem_pending_takeRegion.1 mem).1
  edges := sound.edges

/-! ## Frames as they begin -/

theorem Sound.frame_ids (wf : g.WellFormed) (acyclic : g.Acyclic) :
    ((Plane.ofGraph g).frame g.ids [] [] none).Sound g [] where
  shape := Shape.frame wf acyclic (Plane.scope_ids wf) [] [] none
  iteration := rfl
  seeded _ _ mem := absurd mem (by simp [Plane.frame])
  settled_sub := List.nil_subset _
  settled_nodup := List.nodup_nil
  pending_nodup := List.nodup_nil
  pending_settled _ mem := absurd mem (by simp [Plane.frame])
  edges _ _ _ _ := by simp [Plane.frame]

theorem Sound.iterationFrame (wf : g.WellFormed) (acyclic : g.Acyclic) (around : Frame)
    (iterator : String) (number : Nat) (payload : Json) :
    ((Plane.ofGraph g).iterationFrame around iterator number payload).Sound g
      ((iterator, number) :: place) where
  shape := Shape.iterationFrame wf acyclic around iterator number payload
  iteration := rfl
  seeded e edge mem := by
    have from_iterator : e.2.source = iterator := by
      obtain ⟨d, d_mem, same⟩ := List.mem_map.1 mem
      rw [Graph.mem_outgoing] at d_mem
      rw [← wf.eq_of_number d_mem.1 edge same]
      exact d_mem.2
    rw [from_iterator, Graph.candidatesAt, Plane.mem_regionOf wf acyclic]
    exact fun repeats => repeats.ne acyclic rfl
  settled_sub := List.nil_subset _
  settled_nodup := List.nodup_nil
  pending_nodup := List.nodup_nil
  pending_settled _ mem := absurd mem (by simp [Plane.iterationFrame, Plane.frame])
  edges _ _ _ _ := by simp [Plane.iterationFrame, Plane.frame]

/-! ## Tasks -/

/-- Each member that begins has its task. -/
theorem map_id_tasks (wf : g.WellFormed) (known : ids ⊆ g.ids) :
    (f.tasks (Plane.ofGraph g) ids).map (·.node.id) = ids := by
  induction ids with
  | nil => rfl
  | cons id rest ih =>
      obtain ⟨first, rest_known⟩ := List.cons_subset.1 known
      obtain ⟨n, found, -, same⟩ := Graph.exists_node?_of_mem_ids wf first
      have there : (Plane.ofGraph g).graph.node? id = some n := found
      have more := ih rest_known
      unfold tasks at more ⊢
      rw [List.filterMap_cons, there, Option.map_some, List.map_cons, more, same]

/-! ## The moves that are left -/

/-- A bound on the moves that a frame, or a frame inside it, may still make: each member that is not
settled runs in a wave and may leave a region, and so does each candidate that is no member. -/
def budget (g : Graph) (place : Place) (f : Frame) : Nat :=
  f.pending.length + 2 * f.unsettled.length + 2 * ((g.candidatesAt place).length - f.members.length)

theorem mem_unsettled : id ∈ f.unsettled ↔ id ∈ f.members ∧ id ∉ f.settled := by
  simp [unsettled, isSettled]

theorem Sound.nodup_unsettled (sound : f.Sound g place) : f.unsettled.Nodup :=
  sound.shape.nodup_members.filter _

/-- Members that are settled on the way are missing afterwards. -/
theorem Sound.length_unsettled_add_le (sound : f.Sound g place) (follows : Follows f f')
    (distinct : ids.Nodup) (members : ids ⊆ f.members) (fresh : ∀ id ∈ ids, id ∉ f.settled)
    (settled : ids ⊆ f'.settled) : f'.unsettled.length + ids.length ≤ f.unsettled.length := by
  rw [← List.length_append]
  refine (List.Nodup.subperm ?_ ?_).length_le
  · refine List.nodup_append.2 ⟨?_, distinct, ?_⟩
    · unfold unsettled
      rw [follows.members]
      exact sound.shape.nodup_members.filter _
    · rintro id later _ mem rfl
      exact (mem_unsettled.1 later).2 (settled mem)
  · intro id mem
    rcases List.mem_append.1 mem with later | now
    · obtain ⟨member, open_⟩ := mem_unsettled.1 later
      rw [follows.members] at member
      exact mem_unsettled.2 ⟨member, fun settled => open_ (follows.settled settled)⟩
    · exact mem_unsettled.2 ⟨members now, fresh id now⟩

theorem Sound.budget_skipAll_le (sound : f.Sound g place) :
    (f.skipAll (Plane.ofGraph g)).budget g place ≤ f.budget g place := by
  have follows := follows_skipAll (Plane.ofGraph g) f
  have fewer := sound.length_unsettled_add_le follows List.nodup_nil (List.nil_subset f.members)
    (by simp) (List.nil_subset _)
  unfold budget
  rw [skipAll_pending, follows.members]
  simp only [List.length_nil] at fewer
  omega

theorem mem_readyMembers : id ∈ f.readyMembers p ↔
    id ∈ f.members ∧ id ∉ f.settled ∧ f.readiness p id = .ready := by
  simp [readyMembers, isSettled]

theorem Sound.nodup_readyMembers (sound : f.Sound g place) : (f.readyMembers p).Nodup :=
  sound.shape.nodup_members.filter _

/-- A wave takes from the budget. -/
theorem Sound.budget_settleRan_lt (sound : f.Sound g place)
    (some_ready : f.readyMembers (Plane.ofGraph g) ≠ [])
    (began : (ranIds ran).length ≤ (f.readyMembers (Plane.ofGraph g)).length)
    (follows : Follows f ((f.dispatch (f.readyMembers (Plane.ofGraph g))).settleRan p ran)) :
    ((f.dispatch (f.readyMembers (Plane.ofGraph g))).settleRan p ran).budget g place <
      f.budget g place := by
  have fewer := sound.length_unsettled_add_le follows (sound.nodup_readyMembers _)
    (fun id mem => ((mem_readyMembers _).1 mem).1) (fun id mem => ((mem_readyMembers _).1 mem).2.1)
    (by
      rw [settled_settleRan]
      exact List.subset_append_left _ _)
  have left : (ran.filterMap fun r => regionLeft r.1.node r.2.execution).length ≤
      (ranIds ran).length := by
    have short := (iterators_regionLeft_sublist ran).length_le
    rwa [List.length_map] at short
  have positive := List.length_pos_of_ne_nil some_ready
  unfold budget
  rw [follows.members, pending_settleRan, List.length_append]
  have same : (f.dispatch (f.readyMembers (Plane.ofGraph g))).pending = f.pending := rfl
  rw [same]
  omega

/-- A region takes from the budget. -/
theorem budget_settleRegion_lt (mem : r ∈ f.pending) :
    ((f.takeRegion r.iterator).settleRegion r outputs).budget g place < f.budget g place := by
  have fewer : (f.takeRegion r.iterator).pending.length < f.pending.length :=
    List.length_filter_lt_length_iff_exists.2 ⟨r, mem, by simp⟩
  have same : ((f.takeRegion r.iterator).settleRegion r outputs).budget g place =
      (f.takeRegion r.iterator).pending.length + 2 * f.unsettled.length +
        2 * ((g.candidatesAt place).length - f.members.length) := rfl
  rw [same]
  unfold budget
  omega

/-- The frame of an iteration makes do with less than the frame around it. -/
theorem Sound.budget_iterationFrame_lt (wf : g.WellFormed) (acyclic : g.Acyclic)
    (sound : f.Sound g place) (mem : r ∈ f.pending) (around : Frame) (number : Nat)
    (payload : Json) :
    ((Plane.ofGraph g).iterationFrame around r.iterator number payload).budget g
      ((r.iterator, number) :: place) < f.budget g place := by
  have member := sound.settled_sub (sound.pending_settled r mem)
  have room := sound.shape.length_regionOf_le wf acyclic member
  have child := Shape.iterationFrame wf acyclic around r.iterator number payload
  have within : ((Plane.ofGraph g).iterationFrame around r.iterator number payload).members.length ≤
      ((Plane.ofGraph g).regionOf r.iterator).length := by
    rw [child.members]
    exact Plane.frameMembers_sublist.length_le
  have open_ : ((Plane.ofGraph g).iterationFrame around r.iterator number payload).unsettled.length
      ≤ ((Plane.ofGraph g).iterationFrame around r.iterator number payload).members.length :=
    List.length_filter_le _ _
  have nothing : ((Plane.ofGraph g).iterationFrame around r.iterator number payload).pending = [] :=
    rfl
  have waiting := List.length_pos_of_mem mem
  have region : g.candidatesAt ((r.iterator, number) :: place) =
      (Plane.ofGraph g).regionOf r.iterator := rfl
  unfold budget
  rw [nothing, region, List.length_nil]
  omega

end Frame

end Flowline
