import Flowline.Proofs.Run.Iterations
import Flowline.Proofs.Run.Once

/-!
# Joins

A node behind an iterator that is not repeated by it joins the loop with something else.  It waits
for the region of the iterator along edges out of the region; an edge from the iterator itself is
taken as soon as the iterator is settled, when its region may still wait.

* `LeftRegion`: an execution left a region, and what has happened since.
* `Frame.Accounts`: what a frame knows of all regions that were left so far.
* `accounts_invariant`: the steps of a run keep it.
* `joins_runEvents`: what a join meets when it is dispatched.
-/

namespace Flowline

open Api

variable {ω : Type}

/-! ## Regions that were left -/

/-- An execution in the frame at the place left the region, and this is what has happened since. -/
def LeftRegion (past : List Event) (place : Place) (r : PendingRegion) (since : List Event) :
    Prop :=
  ∃ earlier t ended, past = earlier ++ ⟨place, .settled t ended⟩ :: since ∧
    Frame.regionLeft t.node ended.execution = some r

/-- The region has run to the end of its last iteration. -/
def RegionRan (since : List Event) (place : Place) (r : PendingRegion) : Prop :=
  ⟨place, .closed r⟩ ∈ since ∧
    ∀ k < r.payloads.length, ∃ f, ⟨(r.iterator, k) :: place, .finished f⟩ ∈ since

section

variable {past more since : List Event} {place : Place} {r : PendingRegion}

theorem leftRegion_append : LeftRegion (past ++ more) place r since ↔
    (∃ rest, LeftRegion past place r rest ∧ since = rest ++ more) ∨
      LeftRegion more place r since := by
  constructor
  · rintro ⟨earlier, t, ended, split, left⟩
    rcases List.append_eq_append_iff.1 split with ⟨front, rfl, more_eq⟩ | ⟨rest, past_eq, since_eq⟩
    · exact Or.inr ⟨front, t, ended, more_eq, left⟩
    · cases rest with
      | nil => exact Or.inr ⟨[], t, ended, since_eq.symm, left⟩
      | cons e rest =>
          obtain ⟨rfl, rfl⟩ := List.cons.inj since_eq
          exact Or.inl ⟨rest, ⟨earlier, t, ended, past_eq, left⟩, rfl⟩
  · rintro (⟨rest, ⟨earlier, t, ended, rfl, left⟩, rfl⟩ | ⟨earlier, t, ended, rfl, left⟩)
    · exact ⟨earlier, t, ended, by simp, left⟩
    · exact ⟨past ++ earlier, t, ended, by simp, left⟩

theorem LeftRegion.mem (left_region : LeftRegion past place r since) :
    ∃ t ended, ⟨place, .settled t ended⟩ ∈ past ∧ t.node.id = r.iterator ∧
      Frame.regionLeft t.node ended.execution = some r := by
  obtain ⟨earlier, t, ended, rfl, left⟩ := left_region
  exact ⟨t, ended, List.mem_append_right _ List.mem_cons_self,
    (Frame.iterator_regionLeft left).symm, left⟩

/-- An event in which nothing is executed leaves no region. -/
theorem LeftRegion.of_concat {e : Event} (left_region : LeftRegion (past ++ [e]) place r since)
    (other : ∀ t ended, e.what ≠ .settled t ended) :
    ∃ rest, LeftRegion past place r rest ∧ since = rest ++ [e] := by
  refine (leftRegion_append.1 left_region).resolve_right fun new => ?_
  obtain ⟨t, ended, mem, -⟩ := new.mem
  exact other t ended (congrArg Event.what (List.mem_singleton.1 mem)).symm

theorem Iterated.exists_leftRegion (iterated : Iterated (executions past) place r) :
    ∃ since, LeftRegion past place r since := by
  obtain ⟨t, ended, mem, left⟩ := iterated
  obtain ⟨earlier, since, split⟩ := List.append_of_mem (mem_executions.1 mem)
  exact ⟨since, earlier, t, ended, split, left⟩

theorem RegionRan.append (ran : RegionRan since place r) (more : List Event) :
    RegionRan (since ++ more) place r :=
  ⟨List.mem_append_left _ ran.1, fun k lt =>
    (ran.2 k lt).imp fun _ mem => List.mem_append_left _ mem⟩

end

namespace Frame

/-- What has become of a region that was left in the frame at `q`, as a frame knows it: the region
has run, it still waits in this frame, or this frame is inside the one that it was left in. -/
inductive Fate (f : Frame) (place : Place) (since : List Event) (q : Place) (r : PendingRegion) :
    Prop where
  | ran (all : RegionRan since q r)
  | waits (here : q = place) (pending : r ∈ f.pending)
  | around {O : String} {k : Nat} (inside : (O, k) :: q <:+ place)

/-- What a frame knows of what has happened so far. -/
structure Accounts (g : Graph) (past : List Event) (place : Place) (f : Frame) : Prop where
  /-- Whatever has happened in the frame was about members that are settled now. -/
  about : ∀ e ∈ past, e.place = place → e.about ⊆ f.settled
  home : ∀ q r since, LeftRegion past q r since → g.Chained q ∧ r.iterator ∈ g.membersAt q
  fates : ∀ q r since, LeftRegion past q r since → f.Fate place since q r
  /-- The edges out of an iterator that left a region are taken. -/
  taken : ∀ r since, LeftRegion past place r since → ∀ e ∈ g.edges, e.2.source = r.iterator →
    e.2.target ∈ f.members → f.edges.lookup e.1 = some .taken

variable {g : Graph} {past more since inner part : List Event} {place q : Place}
  {f f₁ f₂ f' : Frame} {s s₁ s₂ : Ongoing ω} {ids : List String} {ran : List (Task × Ended)}
  {r r' : PendingRegion} {outputs : List (Entries Json)} {k : Nat}

theorem Fate.append (fate : f.Fate place since q r) (more : List Event)
    (pending : f.pending ⊆ f'.pending) : f'.Fate place (since ++ more) q r := by
  cases fate with
  | ran all => exact .ran (all.append more)
  | waits here waits => exact .waits here (pending waits)
  | around inside => exact .around inside

theorem Accounts.settled (accounts : f.Accounts g past place)
    (left_region : LeftRegion past place r since) : r.iterator ∈ f.settled := by
  obtain ⟨t, ended, mem, same, -⟩ := left_region.mem
  exact accounts.about _ mem rfl (List.mem_singleton.2 same.symm)

/-- Skipping settles no edge of a member that is settled. -/
theorem lookup_skipAll (wf : g.WellFormed) {e : Nat × Edge} (edge : e ∈ g.edges)
    (settled : e.2.source ∈ f.settled) :
    (f.skipAll (Plane.ofGraph g)).edges.lookup e.1 = f.edges.lookup e.1 := by
  have kept : e.2.source ∈ (f.skipAll (Plane.ofGraph g)).settled ∧
      (f.skipAll (Plane.ofGraph g)).edges.lookup e.1 = f.edges.lookup e.1 := by
    refine skipAll_induction (motive := fun f' => e.2.source ∈ f'.settled ∧
      f'.edges.lookup e.1 = f.edges.lookup e.1) f ⟨settled, rfl⟩ ?_
    rintro f₁ id ⟨settled, same⟩ - skips
    refine ⟨List.mem_cons_of_mem _ settled, ?_⟩
    rw [lookup_skip wf edge, if_neg, same]
    rintro ⟨rfl, -⟩
    exact not_mem_settled_of_mustSkip skips settled
  exact kept.2

/-- An event of a frame in which nothing is executed. -/
theorem Accounts.quiet (accounts : f.Accounts g past place) {e : Event}
    (other : ∀ t ended, e.what ≠ .settled t ended) (about : e.about ⊆ f'.settled)
    (settled : f.settled ⊆ f'.settled) (pending : f'.pending = f.pending)
    (members : f'.members = f.members)
    (edges : ∀ e ∈ g.edges, e.2.source ∈ f.settled → f'.edges.lookup e.1 = f.edges.lookup e.1) :
    f'.Accounts g (past ++ [e]) place := by
  refine ⟨fun d mem here id id_mem => ?_, fun q r since left_region => ?_,
    fun q r since left_region => ?_, fun r since left_region d edge source target => ?_⟩
  · rcases List.mem_append.1 mem with before | last
    · exact settled (accounts.about d before here id_mem)
    · rw [List.mem_singleton.1 last] at id_mem
      exact about id_mem
  · obtain ⟨rest, before, -⟩ := left_region.of_concat other
    exact accounts.home q r rest before
  · obtain ⟨rest, before, rfl⟩ := left_region.of_concat other
    exact (accounts.fates q r rest before).append _ (pending ▸ fun _ mem => mem)
  · obtain ⟨rest, before, -⟩ := left_region.of_concat other
    rw [edges d edge (source ▸ accounts.settled before)]
    exact accounts.taken r rest before d edge source (members ▸ target)

theorem Accounts.waved (wf : g.WellFormed) (accounts : f₁.Accounts g past place)
    (chained : g.Chained place) (sound : f₁.Sound g place)
    (waved : Waved g f₁ s₁ ids ran f₂ s₂) :
    f₂.Accounts g (past ++ ⟨place, .dispatched (f₁.tasks (Plane.ofGraph g) ids)⟩ ::
      ran.map fun r => ⟨place, .settled r.1 r.2⟩) place := by
  have new {q : Place} {r : PendingRegion} {since : List Event}
      (left_region : LeftRegion (⟨place, .dispatched (f₁.tasks (Plane.ofGraph g) ids)⟩ ::
        ran.map fun r => ⟨place, .settled r.1 r.2⟩) q r since) :
      q = place ∧ ∃ x ∈ ran, regionLeft x.1.node x.2.execution = some r := by
    obtain ⟨t, ended, mem, -, left⟩ := left_region.mem
    obtain ⟨x, x_mem, same⟩ := List.mem_map.1 ((List.mem_cons.1 mem).resolve_left (by simp))
    cases same
    exact ⟨rfl, x, x_mem, left⟩
  have began {x : Task × Ended} (mem : x ∈ ran) : x.1.node.id ∈ ids :=
    waved.ranIds_sublist.subset (List.mem_map_of_mem mem)
  have settled : ids ⊆ f₂.settled := by
    rw [waved.settled_eq]
    exact List.subset_append_left _ _
  refine ⟨fun e mem here id id_mem => ?_, fun q r since left_region => ?_,
    fun q r since left_region => ?_, fun r since left_region e edge source target => ?_⟩
  · rcases List.mem_append.1 mem with old | recent
    · exact waved.follows.settled (accounts.about e old here id_mem)
    · rcases List.mem_cons.1 recent with rfl | ended
      · have dispatched : id ∈ (f₁.tasks (Plane.ofGraph g) ids).map (·.node.id) := id_mem
        exact settled (waved.tasks ▸ dispatched)
      · obtain ⟨x, x_mem, rfl⟩ := List.mem_map.1 ended
        exact List.mem_singleton.1 id_mem ▸ settled (began x_mem)
  · rcases leftRegion_append.1 left_region with ⟨rest, old, -⟩ | recent
    · exact accounts.home q r rest old
    · obtain ⟨rfl, x, x_mem, left⟩ := new recent
      have members : f₁.members = g.membersAt q := sound.shape.members
      rw [← members, iterator_regionLeft left]
      exact ⟨chained, waved.members (began x_mem)⟩
  · rcases leftRegion_append.1 left_region with ⟨rest, old, rfl⟩ | recent
    · refine (accounts.fates q r rest old).append _ ?_
      rw [waved.pending_eq]
      exact List.subset_append_left _ _
    · obtain ⟨rfl, x, x_mem, left⟩ := new recent
      refine .waits rfl ?_
      rw [waved.pending_eq]
      exact List.mem_append_right _ (List.mem_filterMap.2 ⟨x, x_mem, left⟩)
  · have target : e.2.target ∈ (f₁.dispatch ids).members := waved.follows.members ▸ target
    rw [waved.frame_eq]
    rcases leftRegion_append.1 left_region with ⟨rest, old, rfl⟩ | recent
    · have stranger : e.2.source ∉ ranIds ran := by
        rw [source]
        exact fun mem => waved.fresh _ (waved.ranIds_sublist.subset mem) (accounts.settled old)
      rw [lookup_settleRan_of_not_mem wf edge stranger]
      exact accounts.taken r rest old e edge source target
    · obtain ⟨-, x, x_mem, left⟩ := new recent
      have from_it : e.2.source = x.1.node.id := source.trans (iterator_regionLeft left)
      rw [lookup_settleRan wf edge target (waved.distinct.sublist waved.ranIds_sublist) x_mem
        from_it, List.contains_iff_mem.2 (mem_takenEdges_of_regionLeft left edge from_it)]
      rfl

/-- An iteration that begins. -/
theorem Accounts.child (accounts : f.Accounts g past place)
    (untouched : ∀ e ∈ past, ¬ (r.iterator, k) :: place <:+ e.place) :
    (g.childFrame f r k).Accounts g (past ++ [⟨(r.iterator, k) :: place,
      .entered (g.childFrame f r k)⟩]) ((r.iterator, k) :: place) := by
  refine ⟨fun e mem here id id_mem => ?_, fun q r' since left_region => ?_,
    fun q r' since left_region => ?_, fun r' since left_region => ?_⟩
  · rcases List.mem_append.1 mem with before | last
    · exact absurd (here ▸ List.suffix_refl _) (untouched e before)
    · rw [List.mem_singleton.1 last] at id_mem
      exact absurd id_mem List.not_mem_nil
  · obtain ⟨rest, before, -⟩ := left_region.of_concat (by simp)
    exact accounts.home q r' rest before
  · obtain ⟨rest, before, rfl⟩ := left_region.of_concat (by simp)
    cases accounts.fates q r' rest before with
    | ran all => exact .ran (all.append _)
    | waits here pending =>
        subst here
        exact .around (List.suffix_refl _)
    | around inside => exact .around (inside.trans (List.suffix_cons _ _))
  · obtain ⟨rest, before, -⟩ := left_region.of_concat (by simp)
    obtain ⟨t, ended, mem, -⟩ := before.mem
    exact absurd (List.suffix_refl _) (untouched _ mem)

/-- What has happened in an iteration is over for the frame around it. -/
theorem Accounts.leave (accounts : f.Accounts g past place)
    (child : f'.Accounts g (past ++ part) ((r.iterator, k) :: place)) (ending : f'.pending = [])
    (within : ∀ e ∈ part, (r.iterator, k) :: place <:+ e.place) :
    f.Accounts g (past ++ part) place := by
  have elsewhere {e : Event} (mem : e ∈ part) : e.place ≠ place := fun here =>
    not_cons_suffix _ _ (here ▸ within e mem)
  refine ⟨fun e mem here id id_mem => ?_, child.home, fun q r' since left_region => ?_,
    fun r' since left_region => ?_⟩
  · rcases List.mem_append.1 mem with before | inside
    · exact accounts.about e before here id_mem
    · exact absurd here (elsewhere inside)
  · rcases leftRegion_append.1 left_region with ⟨rest, old, rfl⟩ | inside
    · exact (accounts.fates q r' rest old).append _ (fun _ mem => mem)
    · obtain ⟨t, ended, mem, -⟩ := inside.mem
      have deeper : (r.iterator, k) :: place <:+ q := within _ mem
      cases child.fates q r' since (leftRegion_append.2 (Or.inr inside)) with
      | ran all => exact .ran all
      | waits here pending => exact absurd (ending ▸ pending) List.not_mem_nil
      | around outside => exact absurd (outside.trans deeper) (not_cons_suffix _ _)
  · rcases leftRegion_append.1 left_region with ⟨rest, old, rfl⟩ | inside
    · exact accounts.taken r' rest old
    · obtain ⟨t, ended, mem, -⟩ := inside.mem
      exact absurd rfl (elsewhere mem)

/-- The end of a region. -/
theorem Accounts.close (accounts : f.Accounts g (past ++ ⟨place, .opened r true⟩ :: inner) place)
    (within : ∀ e ∈ inner, e.place ≠ place)
    (all : ∀ k < r.payloads.length, ∃ f, ⟨(r.iterator, k) :: place, .finished f⟩ ∈ inner)
    (single : ∀ r' ∈ f.pending, r'.iterator = r.iterator → r' = r) :
    ((f.takeRegion r.iterator).settleRegion r outputs).Accounts g
      ((past ++ ⟨place, .opened r true⟩ :: inner) ++ [⟨place, .closed r⟩]) place := by
  refine ⟨fun e mem here id id_mem => ?_, fun q r' since left_region => ?_,
    fun q r' since left_region => ?_, fun r' since left_region => ?_⟩
  · rcases List.mem_append.1 mem with before | last
    · exact accounts.about e before here id_mem
    · rw [List.mem_singleton.1 last] at id_mem
      exact absurd id_mem List.not_mem_nil
  · obtain ⟨rest, before, -⟩ := left_region.of_concat (by simp)
    exact accounts.home q r' rest before
  · obtain ⟨rest, before, rfl⟩ := left_region.of_concat (by simp)
    cases accounts.fates q r' rest before with
    | ran all => exact .ran (all.append _)
    | around inside => exact .around inside
    | waits here pending =>
        subst here
        by_cases same : r'.iterator = r.iterator
        · -- the region that has just run was left before it was opened
          cases single r' pending same
          rcases leftRegion_append.1 before with ⟨since, -, rest_eq⟩ | recent
          · rw [rest_eq]
            refine .ran ⟨by simp, fun k lt => ?_⟩
            obtain ⟨f, mem⟩ := all k lt
            exact ⟨f, by simp [mem]⟩
          · obtain ⟨t, ended, mem, -⟩ := recent.mem
            rcases List.mem_cons.1 mem with first | mem
            · exact absurd (congrArg Event.what first) (by simp)
            · exact absurd rfl (within _ mem)
        · exact .waits rfl (mem_pending_takeRegion.2 ⟨pending, same⟩)
  · obtain ⟨rest, before, -⟩ := left_region.of_concat (by simp)
    exact accounts.taken r' rest before

end Frame

/-! ## Runs -/

/-- Each step of a run that goes on keeps what frames know of regions. -/
theorem accounts_invariant {h : Host ω} (request : RunRequest) {g : Graph} (wf : g.WellFormed)
    (acyclic : g.Acyclic) (alone : h.LeavesRunsAlone) :
    RunInvariant h request g
      (fun past place f s =>
        (f.Mirrors g past place ∧ (s.stopped = false → f.Fresh g past place)) ∧
          (s.stopped = false → f.Sound g place ∧ f.Accounts g past place))
      (fun past place f r outputs s => s.world.engine.slotHeld = true ∧
        ∃ before inner new, UnderWay g before inner past place f r outputs new ∧
          (s.stopped = false → f.Accounts g past place ∧
            ∀ k < outputs.length, ∃ f, ⟨(r.iterator, k) :: place, .finished f⟩ ∈ inner)) where
  skips := by
    rintro past place f f₁ s s₁ ⟨mirrors, accounts⟩ begun
    refine ⟨(mirrors_invariant request wf acyclic alone).skips mirrors begun, fun _ =>
      ⟨begun.sound₁ wf, (accounts begun.goes_on).2.quiet (by simp) ?_ begun.follows.settled
        begun.pending_eq begun.follows.members fun e edge settled => ?_⟩⟩
    · intro id skipped
      rw [begun.settled_eq]
      exact List.mem_append_left _ skipped
    · rw [begun.frame_eq]
      exact Frame.lookup_skipAll wf edge settled
  ends := by
    rintro past place f f₁ s s₁ ⟨mirrors, accounts⟩ begun done
    refine ⟨(mirrors_invariant request wf acyclic alone).ends mirrors begun done, fun going =>
      ⟨begun.sound₁ wf, (accounts going).2.quiet (by simp) (List.nil_subset _)
        (fun _ mem => mem) rfl rfl fun _ _ _ => rfl⟩⟩
  waves := by
    rintro past place f f₁ f₂ s s₁ s₂ ids ran ⟨mirrors, accounts⟩ begun ready dispatched next
    have waved := begun.waved wf alone ready dispatched next
    obtain ⟨sound, accounts⟩ := accounts begun.goes_on₁
    exact ⟨(mirrors_invariant request wf acyclic alone).waves mirrors begun ready dispatched next,
      fun going => ⟨waved.sound wf sound going, accounts.waved wf mirrors.1.chained sound waved⟩⟩
  opens := by
    rintro past place f f₁ s s₁ r ⟨⟨mirrors, fresh⟩, accounts⟩ begun pending ready
    obtain ⟨sound, accounts⟩ := accounts begun.goes_on₁
    refine ⟨begun.held₁, past, [], [],
      .opened sound pending mirrors (fresh begun.goes_on₁), fun _ => ⟨?_, by simp⟩⟩
    exact accounts.quiet (by simp) (List.nil_subset _) (fun _ mem => mem) rfl rfl fun _ _ _ => rfl
  enters := by
    rintro past place f₁ r outputs s ⟨-, before, inner, new, under, accounts⟩ going more
    obtain ⟨mirrors, fresh⟩ := under.enters wf acyclic more
    exact ⟨⟨mirrors, fun _ => fresh⟩, fun _ => ⟨.iterationFrame wf acyclic _ _ _ _,
      (accounts going).1.child under.untouched⟩⟩
  leaves := by
    rintro past place f₁ r outputs s part f' s' ⟨-, before, inner, new, under, accounts⟩ more
      frame_run ⟨⟨mirrors, -⟩, child⟩
    have within : ∀ e ∈ part, (r.iterator, outputs.length) :: place <:+ e.place := fun e mem =>
      (touches_childFrame wf acyclic (frame_run.touches wf acyclic alone e mem)).1
    obtain ⟨new', under'⟩ := under.leaves wf acyclic more within mirrors
    refine ⟨frame_run.held alone, before, _, new', under', fun going => ?_⟩
    obtain ⟨accounts, finished⟩ := accounts (frame_run.goes_on_start alone going)
    obtain ⟨last, sound', ending⟩ := frame_run.exists_finished wf going
    have nothing : f'.pending = [] := List.eq_nil_iff_forall_not_mem.2 fun r' waits =>
      ending r'.iterator (sound'.of_pending waits).2
    refine ⟨accounts.leave (child going).2 nothing fun e mem => ?_, fun k lt => ?_⟩
    · rcases List.mem_cons.1 mem with rfl | mem
      · exact List.suffix_refl _
      · exact within e mem
    · rw [List.length_append, List.length_singleton] at lt
      rcases Nat.lt_or_eq_of_le (Nat.le_of_lt_succ lt) with earlier | rfl
      · obtain ⟨f, mem⟩ := finished k earlier
        exact ⟨f, List.mem_append_left _ mem⟩
      · exact ⟨f', List.mem_append_right _ (List.mem_cons_of_mem _ last)⟩
  closes := by
    rintro past place f₁ r outputs s ⟨held, before, inner, new, under, accounts⟩ all
    refine ⟨⟨under.mirrors_closed wf acyclic, fun _ => under.fresh_closed wf acyclic⟩,
      fun going => ⟨under.sound.settleRegion, ?_⟩⟩
    have going : s.stopped = false := by
      by_contra stopped
      have later := (advance_reportRegion alone s r.iterator (aggregate r.data outputs)).stopped
        held (by simpa using stopped)
      exact Bool.noConfusion (going.symm.trans later)
    obtain ⟨accounts, finished⟩ := accounts going
    rw [under.split] at accounts ⊢
    refine accounts.close (fun e mem here => ?_) (all going ▸ finished) fun r' mem same => ?_
    · obtain ⟨k, -, there⟩ := under.within e mem
      exact not_cons_suffix _ _ (here ▸ there)
    · exact List.inj_on_of_nodup_map under.sound.pending_nodup mem under.pending same

/-- A run begins without regions. -/
theorem accounts_topFrame (g : Graph) :
    g.topFrame.Accounts g [⟨[], .entered g.topFrame⟩] [] := by
  have none_left {q : Place} {r : PendingRegion} {since : List Event} :
      ¬ LeftRegion [⟨[], .entered g.topFrame⟩] q r since := fun left_region => by
    obtain ⟨t, ended, mem, -⟩ := left_region.mem
    exact absurd (congrArg Event.what (List.mem_singleton.1 mem)) (by simp)
  refine ⟨fun e mem _ => ?_, fun q r since left_region => absurd left_region none_left,
    fun q r since left_region => absurd left_region none_left,
    fun r since left_region => absurd left_region none_left⟩
  rw [List.mem_singleton.1 mem]
  exact List.nil_subset _

/-! ## Joins -/

/-- The node may still run in the frame at the place: nothing has happened to it, or it is in the
region of a member to which nothing has happened, or whose region has not run. -/
def Outstanding (g : Graph) (past : List Event) (place : Place) (id : String) : Prop :=
  (id ∈ g.membersAt place ∧ ∀ e ∈ past, e.place = place → id ∉ e.about) ∨
    ∃ O ∈ g.membersAt place, g.Repeats O id ∧
      ((∀ e ∈ past, e.place = place → O ∉ e.about) ∨
        ∃ r since, r.iterator = O ∧ LeftRegion past place r since ∧ ⟨place, .closed r⟩ ∉ past)

/-- The region of the iterator has a predecessor outside that may still run. -/
def Waits (g : Graph) (past : List Event) (place : Place) (I : String) : Prop :=
  ∃ s m, g.Adj s m ∧ g.Repeats I m ∧ ¬ g.InUnit I s ∧ Outstanding g past place s

/-- What a node behind an iterator meets of its region when it is dispatched. -/
structure Task.Meets (g : Graph) (past : List Event) (place : Place) (t : Task) (I : String) :
    Prop where
  /-- Each region that the iterator has left so far has run, or it waits in the same frame, and the
  node has no predecessor in it, or the node is in the region of an iterator that is itself such a
  node, in the frame where the region was left. -/
  regions : ∀ q r since, r.iterator = I → LeftRegion past q r since →
    RegionRan since q r ∨
      (q = place ∧ Waits g past place I ∧ ∀ m, g.Repeats I m → ¬ g.Adj m t.node.id) ∨
      ∃ O k, (O, k) :: q <:+ place ∧ g.Reaches I O ∧ ¬ g.Repeats I O ∧ g.Repeats O t.node.id
  /-- If it comes right behind the iterator and runs in the same frame, it receives the aggregate of
  the region that has run, and of a region that waits the bare data of the iterator. -/
  receives : g.Adj I t.node.id → ∀ r since, r.iterator = I → LeftRegion past place r since →
    (RegionRan since place r ∧ ∃ earlier later, past = earlier ++ ⟨place, .closed r⟩ :: later ∧
      t.input.get? I = some ((ledger earlier).aggregated place r)) ∨
      (Waits g past place I ∧ t.input.get? I = some r.data)
  /-- In any frame it receives the last output of the iterator. -/
  last : g.Adj I t.node.id → ∀ q r since, r.iterator = I → LeftRegion past q r since →
    g.homeOf place I <:+ q → ∃ value, t.input.get? I = some value ∧
      LastOutput past (g.homeOf place I) I (some value)

/-- A member of a frame is no member of a frame inside it. -/
theorem Graph.Chained.eq_of_membersAt {g : Graph} (wf : g.WellFormed) (acyclic : g.Acyclic)
    {place q : Place} {id : String} (chained : g.Chained q) (suffix : place <:+ q)
    (inner : id ∈ g.membersAt q) (outer : id ∈ g.membersAt place) : q = place := by
  cases q with
  | nil => exact (List.suffix_nil.1 suffix).symm
  | cons iteration around =>
      rcases List.suffix_cons_iff.1 suffix with same | deeper
      · exact same.symm
      · have in_region :=
          (Plane.mem_regionOf wf acyclic).1 (Plane.frameMembers_sublist.subset inner)
        have candidate := chained.2.candidates wf acyclic deeper chained.1
        exact absurd in_region (((Plane.mem_frameMembers wf acyclic).1 outer).2 _ candidate)

/-- Of a node that is no iterator around a place, the last output is to be seen from there. -/
theorem Ledger.visible_of_not_around {l : Ledger} {g : Graph} {place : Place} {id : String}
    (apart : ∀ k outer, ¬ (id, k) :: outer <:+ place) :
    l.visible g place id = (l.outputs (g.homeOf place id)).get? id := by
  induction place with
  | nil => rfl
  | cons iteration outer ih =>
      obtain ⟨I, k⟩ := iteration
      have other : id ≠ I := by
        rintro rfl
        exact apart k outer (List.suffix_refl _)
      rw [Ledger.visible, Graph.homeOf, if_neg other]
      split
      · rfl
      · exact ih fun k outer inside => apart k outer (inside.trans (List.suffix_cons _ _))

namespace Frame

variable {g : Graph} {past : List Event} {place : Place} {f : Frame} {s I : String} {t : Task}
  (wf : g.WellFormed) (acyclic : g.Acyclic)

/-- What is ahead of a frame is outstanding by the history. -/
theorem Accounts.outstanding (accounts : f.Accounts g past place)
    (mirrors : f.Mirrors g past place) (sound : f.Sound g place) (ahead : f.Ahead g s) :
    Outstanding g past place s := by
  have members : f.members = g.membersAt place := sound.shape.members
  rcases ahead with ⟨member, fresh⟩ | ⟨O, unfinished, repeats⟩
  · exact Or.inl ⟨members ▸ member, fun e mem here about => fresh (accounts.about e mem here about)⟩
  · obtain ⟨member, fresh | ⟨r, waits, same⟩⟩ := unfinished_iff.1 unfinished
    · exact Or.inr ⟨O, members ▸ member, repeats,
        Or.inl fun e mem here about => fresh (accounts.about e mem here about)⟩
    · obtain ⟨since, left_region⟩ := (mirrors.pending r waits).1.exists_leftRegion
      refine Or.inr ⟨O, members ▸ member, repeats,
        Or.inr ⟨r, since, same, left_region, fun ending => ?_⟩⟩
      obtain ⟨earlier, later, split⟩ := List.append_of_mem ending
      exact (mirrors.closed earlier r later split).2.1 r waits rfl

omit wf acyclic in
/-- A wave is dispatched when no region is ready to run. -/
theorem move_eq_wave {p : Plane} {ids : List String} (move : f.move p = .wave ids) :
    (∀ r ∈ f.pending, f.regionReady p r.iterator = false) ∧ ids = f.readyMembers p := by
  unfold Frame.move at move
  split at move
  · cases move
  · next none_ready =>
      refine ⟨fun r mem => by simpa using List.find?_eq_none.1 none_ready r mem, ?_⟩
      split at move
      · cases waiting : f.pending.head? with
        | none => rw [waiting] at move; cases move
        | some r => rw [waiting] at move; cases move
      · exact (Move.wave.inj move).symm

include wf acyclic

/-- A region that is not ready waits. -/
theorem Accounts.waits (accounts : f.Accounts g past place) (mirrors : f.Mirrors g past place)
    (sound : f.Sound g place) (unready : f.regionReady (Plane.ofGraph g) I = false) :
    Waits g past place I := by
  obtain ⟨s, m, ahead, adj, repeats, outside⟩ :=
    sound.exists_ahead_of_not_regionReady wf acyclic unready
  exact ⟨s, m, adj, repeats, outside, accounts.outstanding mirrors sound ahead⟩

/-- An iterator that left a region in the frame of a node behind it shows its output to the
node. -/
theorem Accounts.get?_gather (accounts : f.Accounts g past place) {id : String}
    (mirrors : f.Mirrors g past place) (sound : f.Sound g place) (member : id ∈ f.members)
    (adj : g.Adj I id) (outside : ¬ g.Repeats I id) {q : Place} {r : PendingRegion}
    {since : List Event} (left_region : LeftRegion past q r since) (same : r.iterator = I)
    (inside : g.homeOf place I <:+ q) :
    (f.gather (Plane.ofGraph g) id).get? I =
      ((ledger past).outputs (g.homeOf place I)).get? I := by
  have members : f.members = g.membersAt place := sound.shape.members
  have shown : f.scope.get? I = ((ledger past).outputs (g.homeOf place I)).get? I := by
    rw [mirrors.scope]
    refine Ledger.visible_of_not_around fun k outer around => outside ?_
    have candidate := sound.shape.mem_candidates member
    exact (Plane.mem_regionOf wf acyclic).1
      (mirrors.chained.candidates wf acyclic around candidate)
  rw [← shown]
  by_cases I_mem : I ∈ f.members
  · -- the iterator left the region in this very frame, and all its edges are taken
    have candidate : I ∈ g.candidatesAt place := sound.shape.mem_candidates I_mem
    rw [Graph.homeOf_of_candidate candidate] at inside
    obtain ⟨chained, at_home⟩ := accounts.home q r since left_region
    have here : q = place := chained.eq_of_membersAt wf acyclic inside
      (same ▸ at_home) (members ▸ I_mem)
    subst here
    refine Frame.get?_gather adj fun e mem source => ?_
    obtain ⟨edge, target⟩ := Graph.mem_incoming.1 mem
    have taken := accounts.taken r since left_region e edge (source.trans same.symm)
      (target ▸ member)
    simp [isActive, taken]
  · exact get?_gather_of_not_mem adj I_mem

/-- What the nodes of a wave meet. -/
theorem Accounts.meets (accounts : f.Accounts g past place) (mirrors : f.Mirrors g past place)
    (sound : f.Sound g place) {ids : List String} (move : f.move (Plane.ofGraph g) = .wave ids)
    (mem : t ∈ f.tasks (Plane.ofGraph g) ids) (is : g.IsIterator I)
    (reaches : g.Reaches I t.node.id) (outside : ¬ g.Repeats I t.node.id) :
    t.Meets g past place I := by
  obtain ⟨unready, rfl⟩ := move_eq_wave move
  obtain ⟨id, ready, found, input⟩ := mem_tasks.1 mem
  obtain ⟨-, rfl⟩ := (Graph.node?_eq_some_iff wf).1 found
  have member := ((mem_readyMembers _).1 ready).1
  have in_frame := sound.shape.mem_candidates member
  refine ⟨fun q r since same left_region => ?_, fun adj r since same left_region => ?_,
    fun adj q r since same left_region inside => ?_⟩
  · cases accounts.fates q r since left_region with
    | ran all => exact Or.inl all
    | waits here pending =>
        have waiting := accounts.waits wf acyclic mirrors sound (unready r pending)
        obtain ⟨-, unfinished⟩ := sound.of_pending pending
        rw [same] at waiting unfinished
        exact Or.inr (Or.inl ⟨here, waiting, fun m repeats adj =>
          sound.not_ahead_of_ready wf acyclic ready adj (Or.inr ⟨I, unfinished, repeats⟩)⟩)
    | @around O k around =>
        obtain ⟨chained, at_home⟩ := accounts.home q r since left_region
        rw [same] at at_home
        have candidate : O ∈ g.candidatesAt q := (mirrors.chained.suffix around).1
        have repeats : g.Repeats O t.node.id := (Plane.mem_regionOf wf acyclic).1
          (mirrors.chained.candidates wf acyclic around in_frame)
        refine Or.inr (Or.inr ⟨O, k, around, ?_, fun both => outside (both.trans repeats), repeats⟩)
        rcases repeats.related I is reaches with rfl | below | above
        · exact absurd repeats outside
        · exact absurd (repeats.between below reaches)
            (((Plane.mem_frameMembers wf acyclic).1 at_home).2 O candidate)
        · exact above
  · obtain ⟨chained, at_home⟩ := accounts.home place r since left_region
    have candidate : I ∈ g.candidatesAt place :=
      same ▸ Plane.frameMembers_sublist.subset at_home
    have home : g.homeOf place I = place := Graph.homeOf_of_candidate candidate
    have inside : g.homeOf place I <:+ place := by rw [home]
    rw [input, accounts.get?_gather wf acyclic mirrors sound member adj outside left_region same
      inside, home]
    cases accounts.fates place r since left_region with
    | ran all =>
        have ending : ⟨place, .closed r⟩ ∈ past := by
          obtain ⟨earlier, t, ended, rfl, -⟩ := left_region
          exact List.mem_append_right _ (List.mem_cons_of_mem _ all.1)
        obtain ⟨earlier, later, split⟩ := List.append_of_mem ending
        obtain ⟨-, -, -, shown⟩ := mirrors.closed earlier r later split
        exact Or.inl ⟨all, earlier, later, split, same ▸ shown⟩
    | waits here pending =>
        have waiting := accounts.waits wf acyclic mirrors sound (unready r pending)
        exact Or.inr (same ▸ ⟨waiting, (mirrors.pending r pending).2⟩)
    | around around => exact absurd around (not_cons_suffix _ _)
  · rw [input, accounts.get?_gather wf acyclic mirrors sound member adj outside left_region same
      inside]
    have last_output := lastOutput_ledger past (g.homeOf place I) I
    cases shown : ((ledger past).outputs (g.homeOf place I)).get? I with
    | some value => exact ⟨value, rfl, shown ▸ last_output⟩
    | none =>
        rw [shown] at last_output
        cases last_output with
        | none nothing =>
            obtain ⟨t', ended, settled, is_it, -⟩ := left_region.mem
            exact absurd (congrArg some (is_it.trans same)) (nothing _ settled inside)

end Frame

/-- **Joins.**  When a node is dispatched that lies behind an iterator and is not repeated by it,
each region that the iterator has left has run to its end, unless it waits for a predecessor outside
and the node has none inside.  Then the node receives the bare data of the iterator, and otherwise
the aggregate of all iterations. -/
theorem joins_runEvents {h : Host ω} {request : RunRequest} (alone : h.LeavesRunsAlone)
    (acyclic : (Graph.ofWorkflow request.workflow).Acyclic) {w : World ω}
    (held : w.engine.slotHeld = true) :
    let g := Graph.ofWorkflow request.workflow
    ∀ past place tasks later,
      runEvents h request g w = past ++ ⟨place, .dispatched tasks⟩ :: later →
        ∀ t ∈ tasks, ∀ I, g.IsIterator I → g.Reaches I t.node.id → ¬ g.Repeats I t.node.id →
          t.Meets g past place I := by
  intro g past place tasks later split t mem I is reaches outside
  have wf : g.WellFormed := Graph.wellFormed_ofWorkflow request.workflow
  have along : Along (SeenIn (Plane.ofGraph g) (runMoments h request g w)) []
      (runEvents h request g w) :=
    ⟨trivial, seenIn_moveEvents h (request.plan g) _ _ _ _ _⟩
  rw [split] at along
  obtain ⟨m, m_mem, rfl, rfl, goes_on, ids, move, rfl⟩ := along.at
  obtain ⟨moments, -⟩ := (accounts_invariant request wf acyclic alone).run wf acyclic alone held
    ⟨⟨mirrors_topFrame g, fun _ => fresh_topFrame g⟩,
      fun _ => ⟨.frame_ids wf acyclic, accounts_topFrame g⟩⟩
  obtain ⟨⟨mirrors, -⟩, accounts⟩ := moments m m_mem
  obtain ⟨sound, accounts⟩ := accounts goes_on
  exact accounts.meets wf acyclic mirrors sound move mem is reaches outside

/-- Two loops with a join behind them; the region of the first waits for a chain of two nodes. -/
def joinedEarly : Workflow :=
  { nodes := [{ id := "each", config := .iterator { mode := .custom, items := "a" } },
      { id := "other", config := .iterator { mode := .custom, items := "b" } },
      { id := "first", config := .format { template := "1" } },
      { id := "second", config := .format { template := "2" } },
      { id := "mark", config := .format { template := "-" } },
      { id := "joined", config := .format { template := "-" } }]
    edges := [{ source := "each", target := "mark" }, { source := "first", target := "second" },
      { source := "second", target := "mark" }, { source := "each", target := "joined" },
      { source := "other", target := "joined" }] }

theorem Graph.acyclic_joinedEarly : (ofWorkflow joinedEarly).Acyclic :=
  acyclic_of_rank
    (fun id => if id = "second" then 1 else if id = "mark" ∨ id = "joined" then 2 else 0)
    (by decide)

theorem Plane.ofGraph_joinedEarly : ofGraph (Graph.ofWorkflow joinedEarly) =
    ⟨Graph.ofWorkflow joinedEarly, [("each", ["mark"]), ("other", [])]⟩ := by
  have regions : (Graph.ofWorkflow joinedEarly).regions = [("each", ["mark"]), ("other", [])] := by
    cbv
  rw [ofGraph, regions]

/-- The join comes right behind the first loop and is not repeated by it. -/
theorem Graph.joinedEarly_behind :
    let g := ofWorkflow joinedEarly
    g.IsIterator "each" ∧ g.Adj "each" "joined" ∧ ¬ g.Repeats "each" "joined" := by
  intro g
  have iterator : ∃ n ∈ g.nodes, n.id = "each" ∧ n.kind = .iterator := by decide
  have edge : ∃ e ∈ g.edges, e.2.source = "each" ∧ e.2.target = "joined" := by decide
  have outside : "joined" ∉ (Plane.ofGraph g).regionOf "each" := by
    rw [Plane.ofGraph_joinedEarly]
    decide
  exact ⟨iterator, edge, fun repeats => outside
    ((Plane.mem_regionOf (wellFormed_ofWorkflow _) acyclic_joinedEarly).2 repeats)⟩

theorem joins_joinedEarly :
    let g := Graph.ofWorkflow joinedEarly
    let events := runEvents (Server.attentive .unavailable) { workflow := joinedEarly } g
      (Server.reserved joinedEarly)
    "joined" ∈ membersSettled [] events ∧
      ∀ past place tasks later, events = past ++ ⟨place, .dispatched tasks⟩ :: later →
        ∀ t ∈ tasks, t.node.id = "joined" → t.Meets g past place "each" := by
  intro g events
  obtain ⟨iterator, adj, outside⟩ := Graph.joinedEarly_behind
  refine ⟨?_, fun past place tasks later split t mem is_joined => ?_⟩
  · simp only [g, events, runEvents, RunRequest.plan, Graph.topFrame, Plane.ofGraph_joinedEarly]
    decide +kernel
  · exact joins_runEvents (Server.leavesRunsAlone_attentive _) Graph.acyclic_joinedEarly rfl
      past place tasks later split t mem "each" iterator (is_joined ▸ .single adj)
      (is_joined ▸ outside)

/-- The join runs before the only iteration of the first loop, and receives its data without
iterations. -/
theorem received_bare_joinedEarly :
    let g := Graph.ofWorkflow joinedEarly
    let events := runEvents (Server.attentive .unavailable) { workflow := joinedEarly } g
      (Server.reserved joinedEarly)
    let s := runGraph (Server.attentive .unavailable) { workflow := joinedEarly } g
      (Server.reserved joinedEarly)
    g.Acyclic ∧ s.stopped = false ∧
      g.IsIterator "each" ∧ g.Adj "each" "joined" ∧ ¬ g.Repeats "each" "joined" ∧
      (executions events).map (fun x => (x.id, x.place)) = [("each", []), ("other", []),
        ("first", []), ("second", []), ("joined", []), ("mark", [("each", 0)])] ∧
      (∃ x ∈ executions events, x.id = "each" ∧
        (Frame.regionLeft x.task.node x.ended.execution).isSome) ∧
      ∃ x ∈ executions events, x.id = "joined" ∧
        (x.task.input.get? "each").any fun value => (value.member? "iterations").isNone := by
  intro g events s
  obtain ⟨iterator, adj, outside⟩ := Graph.joinedEarly_behind
  refine ⟨Graph.acyclic_joinedEarly, ?_, iterator, adj, outside, ?_, ?_, ?_⟩
  · simp only [g, s, runGraph, Plane.ofGraph_joinedEarly]
    decide +kernel
  all_goals
    simp only [g, events, runEvents, RunRequest.plan, Graph.topFrame, Plane.ofGraph_joinedEarly]
    decide +kernel

end Flowline
