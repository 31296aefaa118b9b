import Flowline.Proofs.Run.Barrier
import Flowline.Proofs.Run.Learning

/-!
# Who is dispatched and who is skipped

`Tracks` says what a frame holds of the history so far: a member that is settled was dispatched if
it is admitted by the executions so far, and was skipped otherwise.

* `Tracks.begun`, `Tracks.waved`, `Tracks.region`, `Tracks.child`: each move keeps this.
* `FrameRun.tracks`: it holds of every frame of a run when the frame comes to its end.
-/

namespace Flowline

variable {ω : Type}

/-- Opening a region executes nothing, -/
theorem executions_opened (place : Place) (r : PendingRegion) (past inner : List Event) :
    executions (past ++ ⟨place, .opened r true⟩ :: inner) =
      executions past ++ executions inner := executions_append _ _

/-- and neither does an event in which nothing is settled. -/
theorem executions_concat (past : List Event) {e : Event}
    (other : ∀ t ended, e.what ≠ .settled t ended) : executions (past ++ [e]) = executions past := by
  obtain ⟨place, what⟩ := e
  rw [executions_append]
  cases what with
  | settled t ended => exact absurd rfl (other t ended)
  | entered | skipped | dispatched | opened | closed | finished => exact List.append_nil _

/-- The member was dispatched in the frame at the place. -/
def DispatchedAt (events : List Event) (place : Place) (id : String) : Prop :=
  ∃ tasks, ⟨place, .dispatched tasks⟩ ∈ events ∧ id ∈ tasks.map (·.node.id)

/-- The member was skipped in the frame at the place. -/
def SkippedAt (events : List Event) (place : Place) (id : String) : Prop :=
  ∃ ids, ⟨place, .skipped ids⟩ ∈ events ∧ id ∈ ids

section

variable {past more : List Event} {place : Place} {id : String}

theorem dispatchedAt_append : DispatchedAt (past ++ more) place id ↔
    DispatchedAt past place id ∨ DispatchedAt more place id := by
  simp only [DispatchedAt, List.mem_append, or_and_right, exists_or]

theorem skippedAt_append : SkippedAt (past ++ more) place id ↔
    SkippedAt past place id ∨ SkippedAt more place id := by
  simp only [SkippedAt, List.mem_append, or_and_right, exists_or]

/-- Nothing is dispatched or skipped where nothing is settled. -/
theorem not_settledAt_of_away (away : ∀ e ∈ more, e.place = place → e.settles = []) :
    ¬ DispatchedAt more place id ∧ ¬ SkippedAt more place id := by
  constructor
  · rintro ⟨tasks, mem, settled⟩
    have nothing : tasks.map (·.node.id) = [] := away _ mem rfl
    exact absurd (nothing ▸ settled) List.not_mem_nil
  · rintro ⟨ids, mem, settled⟩
    have nothing : ids = [] := away _ mem rfl
    exact absurd (nothing ▸ settled) List.not_mem_nil

end

/-- What a frame holds of the history so far: which members were dispatched and which were skipped,
and what came in from outside. -/
structure Tracks (g : Graph) (place : Place) (past : List Event) (f : Frame) : Prop where
  knows : f.Knows g place (executions past)
  dispatched : ∀ id, DispatchedAt past place id ↔
    id ∈ f.settled ∧ g.Admits (executions past) place id
  skipped : ∀ id, SkippedAt past place id ↔
    id ∈ f.settled ∧ ¬ g.Admits (executions past) place id
  ran : ∀ id ∈ f.settled, g.Executed (executions past) place id ↔ DispatchedAt past place id
  inputs : ∀ tasks, ⟨place, .dispatched tasks⟩ ∈ past → ∀ t ∈ tasks, ∀ s, g.Adj s t.node.id →
    s ∉ g.candidatesAt place → t.input.get? s = f.scope.get? s

namespace Frame

variable {g : Graph} {f : Frame} {s id : String}

/-- What is gathered of a node along active edges is what the frame shows of it. -/
theorem get?_gather (adj : g.Adj s id)
    (active : ∀ d ∈ g.incoming id, d.2.source = s → f.isActive d.1 d.2 = true) :
    (f.gather (Plane.ofGraph g) id).get? s = f.scope.get? s := by
  obtain ⟨e, edge, rfl, rfl⟩ := adj
  have incoming : e.2.source ∈ ((Plane.ofGraph g).graph.incoming e.2.target).map (·.2.source) :=
    List.mem_map_of_mem (Graph.mem_incoming.2 ⟨edge, rfl⟩)
  unfold gather
  refine (Entries.get?_foldl (·.2.source) (f.scope.get? e.2.source) _ (fun d mem same input => ?_)
    (fun input d other => ?_) _).trans ?_
  · rw [active d mem same, same, Entries.has_eq_isSome]
    cases held : input.get? e.2.source with
    | some value => simp [held]
    | none =>
        cases shown : f.scope.get? e.2.source with
        | some value => simp
        | none => simp [held]
  · have unchanged (output : Json) :
        (input.put d.2.source output).get? e.2.source = input.get? e.2.source :=
      Entries.get?_put_of_ne (Ne.symm other) input output
    split
    · cases f.scope.get? d.2.source with
      | some output => rw [unchanged]
      | none => rfl
    · rfl
  · rw [if_pos incoming]
    rfl

/-- What is gathered of a node outside the frame is what the frame shows of it. -/
theorem get?_gather_of_not_mem (adj : g.Adj s id) (outside : s ∉ f.members) :
    (f.gather (Plane.ofGraph g) id).get? s = f.scope.get? s :=
  get?_gather adj fun d _ same => by simp [isActive, same, outside]

end Frame

/-- The iterator of a region that waits was executed, and left the region. -/
theorem Recorded.iterated {g : Graph} {place : Place} {past : List Event} {f : Frame}
    {r : PendingRegion} (recorded : Recorded g place past f) (pending : r ∈ f.pending) :
    Iterated (executions past) place r := by
  obtain ⟨t, ended, mem, is_left⟩ := recorded.pending r pending
  exact ⟨t, ended, mem_executions.2 mem, is_left⟩

namespace Tracks

variable {g : Graph} {place : Place} {past : List Event} {f f₁ f₂ : Frame} {s s₁ s₂ : Ongoing ω}
  (wf : g.WellFormed) (acyclic : g.Acyclic)
include wf acyclic

theorem begun {request : RunRequest} (tracks : Tracks g place past f)
    (begun : Begun request g place f s f₁ s₁) :
    Tracks g place (past ++ [⟨place, .skipped (f.skippedNext (Plane.ofGraph g))⟩]) f₁ := by
  have same : executions (past ++ [⟨place, .skipped (f.skippedNext (Plane.ofGraph g))⟩]) =
      executions past := executions_concat past (by simp)
  obtain ⟨knows₁, refused⟩ := tracks.knows.skipAll wf acyclic begun.sound
  rw [← begun.frame_eq, begun.settled_eq] at refused
  have skips {id : String} (mem : id ∈ f.skippedNext (Plane.ofGraph g)) :=
    begun.sound.mem_skippedNext wf mem
  have now (id : String) :
      SkippedAt [⟨place, .skipped (f.skippedNext (Plane.ofGraph g))⟩] place id ↔
        id ∈ f.skippedNext (Plane.ofGraph g) := by
    simp [SkippedAt]
  have none_dispatched (id : String) :
      ¬ DispatchedAt [⟨place, .skipped (f.skippedNext (Plane.ofGraph g))⟩] place id := by
    simp [DispatchedAt]
  refine ⟨?_, fun id => ?_, fun id => ?_, fun id settled => ?_,
    fun tasks mem t t_mem s adj out => ?_⟩
  · rw [same, begun.frame_eq]
    exact knows₁
  · rw [same, dispatchedAt_append, or_iff_left (none_dispatched id), tracks.dispatched,
      begun.settled_eq, List.mem_append]
    refine and_congr_left fun admits => (or_iff_right fun skipped => ?_).symm
    exact refused id (List.mem_append_left _ skipped) (skips skipped).2 admits
  · rw [same, skippedAt_append, now, tracks.skipped, begun.settled_eq, List.mem_append]
    constructor
    · rintro (⟨settled, blocked⟩ | skipped)
      · exact ⟨Or.inr settled, blocked⟩
      · exact ⟨Or.inl skipped, refused id (List.mem_append_left _ skipped) (skips skipped).2⟩
    · rintro ⟨skipped | settled, blocked⟩
      · exact Or.inr skipped
      · exact Or.inl ⟨settled, blocked⟩
  · rw [same, dispatchedAt_append, or_iff_left (none_dispatched id)]
    rw [begun.settled_eq] at settled
    rcases List.mem_append.1 settled with skipped | old
    · refine iff_of_false (tracks.knows.fresh id (Or.inl (skips skipped))) fun dispatched => ?_
      exact (skips skipped).2 ((tracks.dispatched id).1 dispatched).1
    · exact tracks.ran id old
  · have before : ⟨place, .dispatched tasks⟩ ∈ past := by simpa using mem
    rw [begun.frame_eq, Frame.skipAll_scope]
    exact tracks.inputs tasks before t t_mem s adj out

theorem waved {ids : List String} {ran : List (Task × Ended)} (tracks : Tracks g place past f₁)
    (sound : f₁.Sound g place) (waved : Waved g f₁ s₁ ids ran f₂ s₂)
    (ready : f₁.readyMembers (Plane.ofGraph g) = ids) (goes_on : s₂.stopped = false) :
    Tracks g place (past ++ ⟨place, .dispatched (f₁.tasks (Plane.ofGraph g) ids)⟩ ::
      ran.map fun r => ⟨place, .settled r.1 r.2⟩) f₂ := by
  have listed : executions (past ++ ⟨place, .dispatched (f₁.tasks (Plane.ofGraph g) ids)⟩ ::
      ran.map fun r => ⟨place, .settled r.1 r.2⟩) =
        executions past ++ ran.map fun r => ⟨place, r.1, r.2⟩ := by
    rw [executions_append, ← executions_map_settled]
    rfl
  have ran_eq := waved.ranIds_eq goes_on
  have knows₂ := waved.knows wf acyclic ready tracks.knows sound goes_on
  have is_ready {id : String} (mem : id ∈ ids) : id ∈ f₁.readyMembers (Plane.ofGraph g) :=
    ready ▸ mem
  have behind {id : String} (settled : id ∈ ids ++ f₁.settled) (s : String) (adj : g.Adj s id) :
      ¬ f₁.Ahead g s := by
    rcases List.mem_append.1 settled with now | old
    · exact sound.not_ahead_of_ready wf acyclic (is_ready now) adj
    · exact tracks.knows.behind id old s adj
  have began {x : Ran} (mem : x ∈ ran.map fun r => (⟨place, r.1, r.2⟩ : Ran)) : x.id ∈ ids := by
    obtain ⟨r, r_mem, rfl⟩ := List.mem_map.1 mem
    exact ran_eq ▸ List.mem_map_of_mem r_mem
  have unchanged {id : String} (settled : id ∈ ids ++ f₁.settled) :
      g.Admits (executions past ++ ran.map fun r => ⟨place, r.1, r.2⟩) place id ↔
        g.Admits (executions past) place id :=
    Graph.admits_append fun x mem adj => behind settled x.id adj
      (Or.inl ⟨waved.members (began mem), waved.fresh _ (began mem)⟩)
  have admitted {id : String} (mem : id ∈ ids) : g.Admits (executions past) place id := by
    refine (tracks.knows.ready_iff wf acyclic sound (waved.members mem) ?_).1
      ((Frame.mem_readyMembers _).1 (is_ready mem)).2.2
    exact behind (List.mem_append_left _ mem)
  have now (id : String) : DispatchedAt (⟨place, .dispatched (f₁.tasks (Plane.ofGraph g) ids)⟩ ::
      ran.map fun r => ⟨place, .settled r.1 r.2⟩) place id ↔ id ∈ ids := by
    conv_rhs => rw [← waved.tasks]
    simp [DispatchedAt]
  have none_skipped (id : String) :
      ¬ SkippedAt (⟨place, .dispatched (f₁.tasks (Plane.ofGraph g) ids)⟩ ::
        ran.map fun r => ⟨place, .settled r.1 r.2⟩) place id := by
    simp [SkippedAt]
  refine ⟨?_, fun id => ?_, fun id => ?_, fun id settled => ?_,
    fun tasks mem t t_mem s adj out => ?_⟩
  · rw [listed]
    exact knows₂
  · rw [listed, dispatchedAt_append, now, tracks.dispatched, waved.settled_eq]
    constructor
    · rintro (⟨settled, admits⟩ | mem)
      · have later : id ∈ ids ++ f₁.settled := List.mem_append_right _ settled
        exact ⟨later, (unchanged later).2 admits⟩
      · have later : id ∈ ids ++ f₁.settled := List.mem_append_left _ mem
        exact ⟨later, (unchanged later).2 (admitted mem)⟩
    · rintro ⟨settled, admits⟩
      rcases List.mem_append.1 settled with mem | old
      · exact Or.inr mem
      · exact Or.inl ⟨old, (unchanged settled).1 admits⟩
  · rw [listed, skippedAt_append, or_iff_left (none_skipped id), tracks.skipped, waved.settled_eq]
    constructor
    · rintro ⟨settled, blocked⟩
      have later : id ∈ ids ++ f₁.settled := List.mem_append_right _ settled
      exact ⟨later, fun admits => blocked ((unchanged later).1 admits)⟩
    · rintro ⟨settled, blocked⟩
      have blocked : ¬ g.Admits (executions past) place id := fun admits =>
        blocked ((unchanged settled).2 admits)
      rcases List.mem_append.1 settled with mem | old
      · exact absurd (admitted mem) blocked
      · exact ⟨old, blocked⟩
  · rw [listed, dispatchedAt_append, now]
    rw [waved.settled_eq] at settled
    rcases List.mem_append.1 settled with mem | old
    · obtain ⟨r, r_mem, rfl⟩ := List.mem_map.1 (ran_eq ▸ mem : id ∈ Frame.ranIds ran)
      refine iff_of_true ⟨⟨place, r.1, r.2⟩, ?_, rfl, ?_⟩ (Or.inr mem)
      · exact List.mem_append_right _ (List.mem_map_of_mem r_mem)
      · rw [Graph.homeOf_of_candidate (sound.shape.mem_candidates (waved.members mem))]
    · have other : id ∉ ids := fun mem => waved.fresh id mem old
      have strangers : ∀ x ∈ ran.map (fun r => (⟨place, r.1, r.2⟩ : Ran)), x.id ≠ id := by
        rintro x mem rfl
        exact other (began mem)
      rw [Graph.executed_append strangers, or_iff_left other]
      exact tracks.ran id old
  · have kept : f₂.scope.get? s = f₁.scope.get? s := by
      have stranger : s ∉ Frame.ranIds ran := fun mem =>
        out (sound.shape.mem_candidates (waved.members (ran_eq ▸ mem)))
      rw [waved.frame_eq, Frame.get?_scope_settleRan_of_not_mem stranger]
      rfl
    rw [kept]
    rcases List.mem_append.1 mem with before | new
    · exact tracks.inputs tasks before t t_mem s adj out
    · have same : tasks = f₁.tasks (Plane.ofGraph g) ids := by simpa using new
      rw [same] at t_mem
      obtain ⟨id, -, found, input⟩ := Frame.mem_tasks.1 t_mem
      obtain ⟨-, rfl⟩ := (Graph.node?_eq_some_iff wf).1 found
      rw [input]
      exact Frame.get?_gather_of_not_mem adj fun member => out (sound.shape.mem_candidates member)

theorem region {r : PendingRegion} {outputs : List (Entries Json)} {inner : List Event}
    (tracks : Tracks g place past f) (recorded : Recorded g place past f) (sound : f.Sound g place)
    (pending : r ∈ f.pending) (within : ∀ e ∈ inner, ∃ k, (r.iterator, k) :: place <:+ e.place)
    (inside : ∀ x ∈ executions inner, g.Repeats r.iterator x.id)
    (leaves : LeavesBehind (executions inner) place outputs) :
    Tracks g place (past ++ ⟨place, .opened r true⟩ :: (inner ++ [⟨place, .closed r⟩]))
      ((f.takeRegion r.iterator).settleRegion r outputs) := by
  have listed : executions (past ++ ⟨place, .opened r true⟩ :: (inner ++ [⟨place, .closed r⟩])) =
      executions past ++ executions inner := by
    rw [executions_opened, executions_concat inner (by simp)]
  have iterated := recorded.iterated pending
  obtain ⟨candidate, unfinished⟩ := sound.of_pending pending
  have knows' := tracks.knows.settleRegion wf acyclic sound pending iterated inside leaves
  have unchanged {id : String} (settled : id ∈ f.settled) :
      g.Admits (executions past ++ executions inner) place id ↔
        g.Admits (executions past) place id :=
    Graph.admits_append fun x mem adj => tracks.knows.behind id settled x.id adj
      (Or.inr ⟨r.iterator, unfinished, inside x mem⟩)
  have away : ∀ e ∈ (⟨place, .opened r true⟩ :: (inner ++ [⟨place, .closed r⟩]) : List Event),
      e.place = place → e.settles = [] := by
    intro e mem here
    rcases List.mem_cons.1 mem with rfl | mem
    · rfl
    · rcases List.mem_append.1 mem with deeper | last
      · obtain ⟨k, suffix⟩ := within e deeper
        exact absurd (here ▸ suffix) (not_cons_suffix _ _)
      · rw [List.mem_singleton.1 last]
        rfl
  refine ⟨?_, fun id => ?_, fun id => ?_, fun id settled => ?_,
    fun tasks mem t t_mem s adj out => ?_⟩
  · rw [listed]
    exact knows'
  · rw [listed, dispatchedAt_append, or_iff_left (not_settledAt_of_away away).1, tracks.dispatched]
    exact and_congr_right fun settled => (unchanged settled).symm
  · rw [listed, skippedAt_append, or_iff_left (not_settledAt_of_away away).2, tracks.skipped]
    exact and_congr_right fun settled => not_congr (unchanged settled).symm
  · have strangers : ∀ x ∈ executions inner, x.id ≠ id := by
      rintro x x_mem rfl
      exact sound.shape.not_repeats wf acyclic (sound.settled_sub settled) candidate
        (inside x x_mem)
    rw [listed, dispatchedAt_append, or_iff_left (not_settledAt_of_away away).1,
      Graph.executed_append strangers]
    exact tracks.ran id settled
  · have before : ⟨place, .dispatched tasks⟩ ∈ past := by
      rcases List.mem_append.1 mem with old | new
      · exact old
      · have nothing : tasks.map (·.node.id) = [] := away _ new rfl
        rw [List.map_eq_nil_iff.1 nothing] at t_mem
        exact absurd t_mem List.not_mem_nil
    have missing : s ∉ (Frame.regionOutputs r outputs).keys := by
      intro key
      obtain ⟨v, v_mem, rfl⟩ := List.mem_map.1 key
      rcases List.mem_append.1 v_mem with latest | aggregated
      · rcases Entries.mem_foldl_putAll latest with nothing | ⟨entries, entries_mem, v_mem⟩
        · exact absurd nothing List.not_mem_nil
        · obtain ⟨x, x_mem, same, -⟩ := leaves.left entries entries_mem v v_mem
          exact out (sound.shape.scope.closed _ candidate _ (same ▸ inside x x_mem))
      · rw [List.mem_singleton.1 aggregated] at out
        exact out candidate
    rw [Frame.scope_settleRegion, Entries.get?_putAll_of_not_mem missing]
    exact tracks.inputs tasks before t t_mem s adj out

/-- What the frame of an iteration holds as it begins. -/
theorem child {r : PendingRegion} {k : Nat} {inner : List Event}
    (tracks : Tracks g place past f) (recorded : Recorded g place past f) (sound : f.Sound g place)
    (pending : r ∈ f.pending) (inside : ∀ x ∈ executions inner, g.Repeats r.iterator x.id)
    (others : ∀ e ∈ inner, ∃ j, j ≠ k ∧ (r.iterator, j) :: place <:+ e.place) :
    Tracks g ((r.iterator, k) :: place)
      (past ++ ⟨place, .opened r true⟩ ::
        (inner ++ [⟨(r.iterator, k) :: place, .entered (g.childFrame f r k)⟩]))
      (g.childFrame f r k) := by
  have listed : executions (past ++ ⟨place, .opened r true⟩ ::
      (inner ++ [⟨(r.iterator, k) :: place, .entered (g.childFrame f r k)⟩])) =
        executions past ++ executions inner := by
    rw [executions_opened, executions_concat inner (by simp)]
  have iterated := recorded.iterated pending
  obtain ⟨-, unfinished⟩ := sound.of_pending pending
  -- Nothing has happened in this iteration yet.
  have new {e : Event} (mem : e ∈ past ∨ e ∈ inner) : ¬ (r.iterator, k) :: place <:+ e.place := by
    intro deeper
    rcases mem with old | other
    · exact recorded.untouched e old r.iterator k deeper unfinished
    · obtain ⟨j, differs, there⟩ := others e other
      cases eq_of_suffix_of_length_eq deeper there rfl
      exact differs rfl
  have untouched : ∀ x ∈ executions past ++ executions inner,
      ¬ (r.iterator, k) :: place <:+ x.place := by
    intro x mem
    rcases List.mem_append.1 mem with old | other
    · exact new (Or.inl (mem_executions.1 old))
    · exact new (Or.inr (mem_executions.1 other))
  have away : ∀ e ∈ past ++ ⟨place, .opened r true⟩ ::
      (inner ++ [⟨(r.iterator, k) :: place, .entered (g.childFrame f r k)⟩]),
      e.place = (r.iterator, k) :: place → e.settles = [] := by
    intro e mem here
    have suffix : (r.iterator, k) :: place <:+ e.place := here ▸ List.suffix_refl _
    rcases List.mem_append.1 mem with old | mem
    · exact absurd suffix (new (Or.inl old))
    · rcases List.mem_cons.1 mem with rfl | mem
      · rfl
      · rcases List.mem_append.1 mem with other | last
        · exact absurd suffix (new (Or.inr other))
        · rw [List.mem_singleton.1 last]
          rfl
  refine ⟨?_, fun id => ?_, fun id => ?_, fun id settled => absurd settled List.not_mem_nil,
    fun tasks mem t t_mem => ?_⟩
  · rw [listed]
    exact tracks.knows.child wf acyclic sound pending iterated inside untouched
  · exact iff_of_false (not_settledAt_of_away away).1 fun settled =>
      absurd settled.1 List.not_mem_nil
  · exact iff_of_false (not_settledAt_of_away away).2 fun settled =>
      absurd settled.1 List.not_mem_nil
  · have nothing : tasks.map (·.node.id) = [] := away _ mem rfl
    rw [List.map_eq_nil_iff.1 nothing] at t_mem
    exact absurd t_mem List.not_mem_nil

omit wf acyclic in
theorem finished (tracks : Tracks g place past f) (f' : Frame) :
    Tracks g place (past ++ [⟨place, .finished f'⟩]) f := by
  have listed : executions (past ++ [⟨place, .finished f'⟩]) = executions past :=
    executions_concat past (by simp)
  have away : ∀ e ∈ ([⟨place, .finished f'⟩] : List Event), e.place = place → e.settles = [] := by
    intro e mem _
    rw [List.mem_singleton.1 mem]
    rfl
  refine ⟨?_, fun id => ?_, fun id => ?_, fun id settled => ?_, fun tasks mem => ?_⟩
  · rw [listed]
    exact tracks.knows
  · rw [listed, dispatchedAt_append, or_iff_left (not_settledAt_of_away away).1]
    exact tracks.dispatched id
  · rw [listed, skippedAt_append, or_iff_left (not_settledAt_of_away away).2]
    exact tracks.skipped id
  · rw [listed, dispatchedAt_append, or_iff_left (not_settledAt_of_away away).1]
    exact tracks.ran id settled
  · exact tracks.inputs tasks (by simpa using mem)

end Tracks

theorem tracks_topFrame (g : Graph) : Tracks g [] [⟨[], .entered g.topFrame⟩] g.topFrame := by
  have nothing : executions [⟨[], .entered g.topFrame⟩] = [] := rfl
  have away : ∀ e ∈ ([⟨[], .entered g.topFrame⟩] : List Event), e.place = [] → e.settles = [] := by
    intro e mem _
    rw [List.mem_singleton.1 mem]
    rfl
  have unexecuted (id : String) : ¬ g.Executed [] [] id := fun ⟨_, mem, _⟩ =>
    absurd mem List.not_mem_nil
  refine ⟨?_, fun id => ?_, fun id => ?_, fun id settled => absurd settled List.not_mem_nil,
    fun tasks mem => by simp at mem⟩
  · rw [nothing]
    refine ⟨⟨fun v mem => absurd mem List.not_mem_nil, fun x mem => absurd mem List.not_mem_nil⟩,
      ⟨fun v mem => absurd mem List.not_mem_nil, fun x mem => absurd mem List.not_mem_nil⟩,
      fun e _ => iff_of_false List.not_mem_nil (by simp), fun e _ around => by simp at around,
      fun e _ _ _ => iff_of_false (fun taken => by cases taken) fun fired => ?_,
      fun id _ => unexecuted id, fun id settled => absurd settled List.not_mem_nil⟩
    exact unexecuted _ fired.executed
  · exact iff_of_false (not_settledAt_of_away away).1 fun settled =>
      absurd settled.1 List.not_mem_nil
  · exact iff_of_false (not_settledAt_of_away away).2 fun settled =>
      absurd settled.1 List.not_mem_nil

/-! ## Runs -/

/-- When a frame comes to its end all its members are settled, and it holds what it should of the
history. -/
def Tracked (g : Graph) (past : List Event) (e : Event) : Prop :=
  ∀ f, e.what = .finished f → f.Sound g e.place ∧ (∀ u, ¬ f.Unfinished u) ∧ Tracks g e.place past f

theorem tracked_of_ne {g : Graph} {past : List Event} {e : Event}
    (other : ∀ f, e.what ≠ .finished f) : Tracked g past e := fun f same => absurd same (other f)

variable {h : Host ω} {request : RunRequest} {g : Graph}

/-- The executions of a region are of nodes that its iterator repeats. -/
theorem repeats_of_mem_executions (wf : g.WellFormed) (acyclic : g.Acyclic)
    (alone : h.LeavesRunsAlone) {place : Place} {f : Frame} {r : PendingRegion} {count : Nat}
    {states : Nat → Ongoing ω} {parts : Nat → List Event} {frames : Nat → Frame}
    (each : ∀ k < count, FrameRun h request g ((r.iterator, k) :: place) (g.childFrame f r k)
      (states k) (parts k) (frames k) (states (k + 1)))
    {x : Ran} (mem : x ∈ executions (g.innerEvents place f r parts count)) :
    g.Repeats r.iterator x.id := by
  obtain ⟨k, lt, same | inside⟩ := mem_innerEvents.1 (mem_executions.1 mem)
  · exact absurd (congrArg Event.what same) (by simp)
  · have touches := (each k lt).touches wf acyclic alone _ inside
    exact (touches_childFrame wf acyclic touches).2 x.id (List.mem_singleton_self _)

/-- What the iterations of a region yield, when each knows what was executed up to its end. -/
theorem leavesBehind_innerEvents {place : Place} {f : Frame} {r : PendingRegion} {count : Nat}
    {parts : Nat → List Event} {frames : Nat → Frame} (past : List Event)
    (within : ∀ k < count, ∀ e,
      e = ⟨(r.iterator, k) :: place, .entered (g.childFrame f r k)⟩ ∨ e ∈ parts k →
        (r.iterator, k) :: place <:+ e.place)
    (untouched : ∀ e ∈ past, ∀ k, ¬ (r.iterator, k) :: place <:+ e.place)
    (shows : ∀ k < count,
      Shows (executions past ++ executions (g.innerEvents place f r parts (k + 1)))
        (fun _ => (r.iterator, k) :: place) (frames k).outputs) :
    LeavesBehind (executions (g.innerEvents place f r parts count)) place
      ((List.range count).map fun k => (frames k).outputs) where
  left entries mem v v_mem := by
    obtain ⟨k, k_mem, rfl⟩ := List.mem_map.1 mem
    have lt := List.mem_range.1 k_mem
    obtain ⟨x, x_mem, same, there, is_left⟩ := (shows k lt).left v v_mem
    refine ⟨x, ?_, same, (List.suffix_cons _ _).trans there, is_left⟩
    rcases List.mem_append.1 x_mem with old | new
    · exact absurd there (untouched _ (mem_executions.1 old) k)
    · obtain ⟨j, before, part⟩ := mem_innerEvents.1 (mem_executions.1 new)
      exact mem_executions.2 (mem_innerEvents.2 ⟨j, by omega, part⟩)
  all x mem := by
    obtain ⟨k, lt, part⟩ := mem_innerEvents.1 (mem_executions.1 mem)
    have known : x ∈ executions (g.innerEvents place f r parts (k + 1)) :=
      mem_executions.2 (mem_innerEvents.2 ⟨k, Nat.lt_succ_self k, part⟩)
    exact ⟨(frames k).outputs, List.mem_map_of_mem (List.mem_range.2 lt),
      (shows k lt).all x (List.mem_append_right _ known) (within k lt _ part)⟩

/-- A frame goes on to hold what it should of the history, and so does each frame inside it. -/
theorem FrameRun.tracks (wf : g.WellFormed) (acyclic : g.Acyclic) (alone : h.LeavesRunsAlone)
    {place : Place} {f f' : Frame} {s s' : Ongoing ω} {events : List Event}
    (frame_run : FrameRun h request g place f s events f' s') {past : List Event}
    (start : s.stopped = false → Recorded g place past f ∧ Tracks g place past f) :
    Along (Tracked g) past events ∧
      (s'.stopped = false → Tracks g place (past ++ events) f') := by
  induction frame_run generalizing past with
  | stopped held stopped =>
      exact ⟨trivial, fun goes_on => Bool.noConfusion (goes_on.symm.trans stopped)⟩
  | finished begun done =>
      have tracks₁ := (start begun.goes_on).2.begun wf acyclic begun
      refine ⟨⟨tracked_of_ne (by simp), ?_, trivial⟩, fun _ => ?_⟩
      · rintro f same
        cases same
        exact ⟨begun.sound₁ wf, done, tracks₁⟩
      · simpa using tracks₁.finished _
  | @wave place f f₁ f₂ f' s s₁ s₂ s' ids ran events begun ready dispatched next rest ih =>
      obtain ⟨recorded, tracks⟩ := start begun.goes_on
      have waved := begun.waved wf alone ready dispatched next
      have recorded₁ := recorded.begun begun
      have tracks₁ := tracks.begun wf acyclic begun
      obtain ⟨along, final⟩ := ih fun goes_on => ⟨recorded₁.waved waved goes_on,
        tracks₁.waved wf acyclic (begun.sound₁ wf) waved ready goes_on⟩
      refine ⟨⟨tracked_of_ne (by simp), ?_⟩, fun goes_on => by simpa using final goes_on⟩
      rw [← List.cons_append, along_append]
      refine ⟨⟨tracked_of_ne (by simp), along_of_forall ?_⟩, along⟩
      intro past e mem
      obtain ⟨r, -, rfl⟩ := List.mem_map.1 mem
      exact tracked_of_ne (by simp)
  | @region place f f₁ f' s s₁ s' r count states parts frames outputs events begun pending ready
      iterates first each outputs_eq rest each_ih ih =>
      obtain ⟨recorded, tracks⟩ := start begun.goes_on
      have sound := begun.sound₁ wf
      have recorded₁ := recorded.begun begun
      have tracks₁ := tracks.begun wf acyclic begun
      have within := within_innerEvents wf acyclic alone each
      have inside {n : Nat} (le : n ≤ count) :
          ∀ x ∈ executions (g.innerEvents place f₁ r parts n), g.Repeats r.iterator x.id :=
        fun x mem => repeats_of_mem_executions wf acyclic alone
          (fun k lt => each k (Nat.lt_of_lt_of_le lt le)) mem
      have deeper {n : Nat} (le : n ≤ count) (e : Event)
          (mem : e ∈ g.innerEvents place f₁ r parts n) :
          ∃ k < n, (r.iterator, k) :: place <:+ e.place := by
        obtain ⟨k, lt, mem⟩ := mem_innerEvents.1 mem
        exact ⟨k, lt, within k (Nat.lt_of_lt_of_le lt le) e mem⟩
      have child (k : Nat) (lt : k < count) := each_ih k lt fun _ => by
        have others : ∀ e ∈ g.innerEvents place f₁ r parts k,
            ∃ j, j ≠ k ∧ (r.iterator, j) :: place <:+ e.place := by
          intro e mem
          obtain ⟨j, before, there⟩ := deeper (Nat.le_of_lt lt) e mem
          exact ⟨j, Nat.ne_of_lt before, there⟩
        exact ⟨recorded₁.child wf acyclic sound pending ready others,
          tracks₁.child wf acyclic recorded₁ sound pending (inside (Nat.le_of_lt lt)) others⟩
      obtain ⟨along, final⟩ := ih fun goes_on => by
        obtain ⟨all, going⟩ := iterates.complete alone (begun.held_first first) each goes_on
        have ended : ∀ k < r.payloads.length, ∃ f, ⟨(r.iterator, k) :: place, .finished f⟩ ∈
            g.innerEvents place f₁ r parts count := by
          intro k lt
          rw [← all] at lt
          have last := (each k lt).exists_finished wf (going k lt)
          exact ⟨_, mem_innerEvents.2 ⟨k, lt, Or.inr last.1⟩⟩
        have somewhere (e : Event) (mem : e ∈ g.innerEvents place f₁ r parts count) :
            ∃ k, (r.iterator, k) :: place <:+ e.place := by
          obtain ⟨k, -, there⟩ := deeper (Nat.le_refl count) e mem
          exact ⟨k, there⟩
        obtain ⟨-, unfinished⟩ := sound.of_pending pending
        have leaves : LeavesBehind (executions (g.innerEvents place f₁ r parts count)) place
            outputs := by
          rw [outputs_eq]
          refine leavesBehind_innerEvents _ within
            (fun e mem k there => recorded₁.untouched e mem r.iterator k there unfinished)
            fun k lt => ?_
          have knows := ((child k lt).2 (going k lt)).knows
          rw [innerEvents_succ, ← executions_opened place r]
          simpa using knows.outputs
        exact ⟨recorded₁.region sound pending somewhere ended,
          tracks₁.region wf acyclic recorded₁ sound pending somewhere (inside (Nat.le_refl count))
            leaves⟩
      refine ⟨⟨tracked_of_ne (by simp), tracked_of_ne (by simp), ?_⟩,
        fun goes_on => by simpa using final goes_on⟩
      rw [along_append]
      refine ⟨along_innerEvents fun k lt => ⟨tracked_of_ne (by simp), ?_⟩,
        tracked_of_ne (by simp), ?_⟩
      · simpa using (child k lt).1
      · simpa using along

end Flowline
