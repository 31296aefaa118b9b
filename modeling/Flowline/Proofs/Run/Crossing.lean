import Flowline.Proofs.Run.Tally
import Flowline.Proofs.Run.Tracking

/-!
# Edges into and out of regions

An edge within a frame counts as taken if an execution of its source went on along it.  An edge that
crosses the border of a region is treated otherwise.

Out of a region, it counts as taken for the frame around as soon as its source was executed, be it
that all executions failed, suppressed their output or went on along other edges.  So a node behind
a region may run although none of its edges was fired (`JudgesLeaving`).

Into a region, it does not count in the iterations: a node is not dispatched because of it.  But
whatever its source came to comes into the node, if the source was executed (`Disregards`).

* `FrameRun.exists_frameEnds`: each frame that a run enters ends with all its members settled.
* `judgesLeaving_runEvents`, `disregards_runEvents`: what the frames of a run make of such edges.
-/

namespace Flowline

open Api

variable {ω : Type}

/-! ## The end of a frame -/

/-- The frame at the place came to its end after the events so far, with all its members settled and
no region left, and nothing is settled in it later. -/
structure FrameEnds (g : Graph) (events past : List Event) (place : Place) (f : Frame) : Prop where
  split : ∃ later, events = past ++ ⟨place, .finished f⟩ :: later
  sound : f.Sound g place
  done : ∀ u, ¬ f.Unfinished u
  tracks : Tracks g place past f
  last : ∀ e ∈ events, e.place = place → e.settles ≠ [] → e ∈ past

namespace FrameEnds

variable {g : Graph} {events past : List Event} {place : Place} {f : Frame} {id : String}

theorem subset (ends : FrameEnds g events past place f) : past ⊆ events := by
  obtain ⟨later, split⟩ := ends.split
  rw [split]
  exact List.subset_append_left _ _

theorem not_ahead (ends : FrameEnds g events past place f) (id : String) : ¬ f.Ahead g id := by
  rintro (⟨member, unsettled⟩ | ⟨O, unfinished, -⟩)
  · exact ends.done id (Frame.unfinished_iff.2 ⟨member, Or.inl unsettled⟩)
  · exact ends.done O unfinished

theorem mem_settled (ends : FrameEnds g events past place f) (member : id ∈ g.membersAt place) :
    id ∈ f.settled := by
  by_contra unsettled
  have members : f.members = g.membersAt place := ends.sound.shape.members
  exact ends.not_ahead id (Or.inl ⟨members ▸ member, unsettled⟩)

/-- A member is dispatched if it is admitted, -/
theorem dispatchedAt_iff (ends : FrameEnds g events past place f)
    (member : id ∈ g.membersAt place) :
    DispatchedAt events place id ↔ g.Admits (executions past) place id := by
  rw [← and_iff_right (ends.mem_settled member) (b := g.Admits (executions past) place id),
    ← ends.tracks.dispatched id]
  constructor
  · rintro ⟨tasks, mem, settled⟩
    exact ⟨tasks, ends.last _ mem rfl (List.ne_nil_of_mem settled), settled⟩
  · rintro ⟨tasks, mem, settled⟩
    exact ⟨tasks, ends.subset mem, settled⟩

/-- and skipped otherwise. -/
theorem skippedAt_iff (ends : FrameEnds g events past place f) (member : id ∈ g.membersAt place) :
    SkippedAt events place id ↔ ¬ g.Admits (executions past) place id := by
  rw [← and_iff_right (ends.mem_settled member) (b := ¬ g.Admits (executions past) place id),
    ← ends.tracks.skipped id]
  constructor
  · rintro ⟨ids, mem, settled⟩
    exact ⟨ids, ends.last _ mem rfl (List.ne_nil_of_mem settled), settled⟩
  · rintro ⟨ids, mem, settled⟩
    exact ⟨ids, ends.subset mem, settled⟩

end FrameEnds

section

variable {h : Host ω} {request : RunRequest} {g : Graph}

/-- In a run that goes on each frame that is entered comes to its end. -/
theorem FrameRun.exists_frameEnds (wf : g.WellFormed) (acyclic : g.Acyclic)
    (alone : h.LeavesRunsAlone) {f : Frame} {s s' : Ongoing ω} {events : List Event}
    (frame_run : FrameRun h request g [] g.topFrame s events f s') (goes_on : s'.stopped = false)
    {place : Place} {child : Frame}
    (entered : ⟨place, .entered child⟩ ∈ ⟨[], .entered g.topFrame⟩ :: events) :
    ∃ past f, FrameEnds g (⟨[], .entered g.topFrame⟩ :: events) past place f := by
  obtain ⟨-, frame_done⟩ := frame_run.frameDone wf acyclic alone goes_on entered
  obtain ⟨last_frame, finished, -⟩ := frame_done.finished
  obtain ⟨past, later, split⟩ := List.append_of_mem finished
  have along : Along (Tracked g) [] (⟨[], .entered g.topFrame⟩ :: events) :=
    ⟨tracked_of_ne (by simp),
      (frame_run.tracks wf acyclic alone fun _ => ⟨recorded_topFrame wf, tracks_topFrame g⟩).1⟩
  rw [split] at along
  obtain ⟨sound, done, tracks⟩ := along.at last_frame rfl
  refine ⟨past, last_frame, ⟨later, split⟩, sound, done, tracks, fun e mem here settles => ?_⟩
  -- All members are settled by now, and none is settled twice.
  obtain ⟨id, id_mem⟩ := List.exists_mem_of_ne_nil _ settles
  have members : last_frame.members = g.membersAt place := sound.shape.members
  have distinct : (membersSettled place (⟨[], .entered g.topFrame⟩ :: events)).Nodup :=
    frame_done.settled.nodup_iff.2 (members ▸ sound.shape.nodup_members)
  have known {part : List Event} (e_mem : e ∈ part) : id ∈ membersSettled place part :=
    List.mem_flatMap.2 ⟨e, e_mem, by rw [if_pos here]; exact id_mem⟩
  have member : id ∈ last_frame.members := by
    rw [members]
    exact frame_done.settled.subset (known mem)
  have settled : id ∈ last_frame.settled := by
    by_contra unsettled
    exact done id (Frame.unfinished_iff.2 ⟨member, Or.inl unsettled⟩)
  have before : id ∈ membersSettled place past := by
    by_cases admits : g.Admits (executions past) place id
    · obtain ⟨tasks, tasks_mem, now⟩ := (tracks.dispatched id).2 ⟨settled, admits⟩
      exact List.mem_flatMap.2 ⟨_, tasks_mem, by rw [if_pos rfl]; exact now⟩
    · obtain ⟨ids, ids_mem, now⟩ := (tracks.skipped id).2 ⟨settled, admits⟩
      exact List.mem_flatMap.2 ⟨_, ids_mem, by rw [if_pos rfl]; exact now⟩
  rw [split] at mem distinct
  rcases List.mem_append.1 mem with old | new
  · exact old
  · rw [membersSettled_append] at distinct
    exact absurd rfl ((List.nodup_append.1 distinct).2.2 id before id (known new))

/-! ## Results -/

/-- The node has no result, or the one of a node that was skipped. -/
def Progress.Unrun (q : Progress) (id : String) : Prop :=
  q.results.get? id = none ∨ q.results.get? id = some {}

namespace Progress

variable {q : Progress} {id : String}

theorem Unrun.skip (unrun : q.Unrun id) (ids : List String) : (q.skip ids).Unrun id := by
  unfold Unrun at unrun ⊢
  rw [get?_skip]
  rcases unrun with none_yet | skipped
  · rw [none_yet]
    by_cases mem : id ∈ ids
    · exact Or.inr (by simp [mem])
    · exact Or.inl (by simp [mem])
  · exact Or.inr (by simp [skipped])

theorem Unrun.amend (unrun : q.Unrun id) {I : String} (other : I ≠ id) (data : Json) :
    (q.amend I data).Unrun id := by
  unfold Unrun at unrun ⊢
  unfold Progress.amend
  split
  · rw [Entries.get?_put_of_ne (Ne.symm other)]
    exact unrun
  · exact unrun

end Progress

/-- A node that is never executed gets no result but that of a node that was skipped. -/
theorem FrameRun.unrun (wf : g.WellFormed) (alone : h.LeavesRunsAlone) {place : Place}
    {f f' : Frame} {s s' : Ongoing ω} {events : List Event}
    (frame_run : FrameRun h request g place f s events f' s') {id : String}
    (never : ∀ x ∈ executions events, x.id ≠ id) (idle : ∀ r ∈ f.pending, r.iterator ≠ id)
    (start : s.progress.Unrun id) : s'.progress.Unrun id := by
  induction frame_run with
  | stopped held stopped => exact start
  | finished begun done =>
      rw [begun.progress_eq]
      exact start.skip _
  | @wave place f f₁ f₂ f' s s₁ s₂ s' ids ran events begun ready dispatched next rest ih =>
      have waved := begun.waved wf alone ready dispatched next
      rw [executions_wave] at never
      have stranger : id ∉ Frame.ranIds ran := by
        intro mem
        obtain ⟨r, r_mem, same⟩ := List.mem_map.1 mem
        exact never ⟨place, r.1, r.2⟩ (List.mem_append_left _ (List.mem_map_of_mem r_mem)) same
      refine ih (fun x mem => never x (List.mem_append_right _ mem)) (fun r mem => ?_) ?_
      · rw [waved.pending_eq, begun.pending_eq] at mem
        rcases List.mem_append.1 mem with held | left
        · exact idle r held
        · exact fun same => stranger (same ▸ Frame.iterator_mem_ranIds ran left)
      · unfold Progress.Unrun
        rw [waved.progress_eq, Progress.get?_recordRan_of_not_mem stranger, begun.progress_eq]
        exact start.skip _
  | @region place f f₁ f' s s₁ s' r count states parts frames outputs events begun pending ready
      iterates first each outputs_eq rest each_ih ih =>
      rw [executions_region] at never
      have iterated (k : Nat) (le : k ≤ count) : (states k).progress.Unrun id := by
        induction k with
        | zero =>
            rw [first, begun.progress_eq]
            exact start.skip _
        | succ k before =>
            refine each_ih k le (fun x mem => never x (List.mem_append_left _ ?_))
              (fun r mem => absurd mem List.not_mem_nil) (before (Nat.le_of_succ_le le))
            exact mem_executions.2 (mem_innerEvents.2 ⟨k, le, Or.inr (mem_executions.1 mem)⟩)
      rw [begun.pending_eq] at pending
      refine ih (fun x mem => never x (List.mem_append_right _ mem)) (fun other mem => ?_)
        ((iterated count (Nat.le_refl _)).amend (idle r pending) _)
      have before := (Frame.mem_pending_takeRegion.1 mem).1
      rw [begun.pending_eq] at before
      exact idle other before

end

/-! ## Out of regions -/

/-- What a frame makes of the edges into a member that come out of regions: such an edge counts as
taken exactly if its source was executed in some iteration, whether or not it was fired. -/
structure JudgesLeaving (g : Graph) (events past : List Event) (results : Entries NodeResult)
    (place : Place) (f : Frame) (id : String) : Prop where
  /-- The source is outside the frame altogether, and then the edge does not count, or it is in the
  region of a member. -/
  verdict : ∀ I, ∀ e ∈ g.incoming id, g.Repeats I e.2.source → ¬ g.Repeats I id →
    (e.2.source ∉ g.candidatesAt place ∧ f.verdict e.1 e.2 = .ignored) ∨
      (g.Nested place e.2.source ∧
        (f.verdict e.1 e.2 = .settled .taken ↔ g.Executed (executions past) place e.2.source) ∧
        (f.verdict e.1 e.2 = .settled .skipped ↔
          ¬ g.Executed (executions past) place e.2.source))
  dispatched : DispatchedAt events place id ↔ g.Admits (executions past) place id
  skipped : SkippedAt events place id ↔ ¬ g.Admits (executions past) place id
  /-- If no edge into the member was fired, it is skipped exactly if no source in the region of a
  member was executed. -/
  unfired : g.incoming id ≠ [] → (∀ e ∈ g.incoming id, ¬ g.Fired (executions past) place e) →
    (SkippedAt events place id ↔ ∀ e ∈ g.incoming id, g.Nested place e.2.source →
      ¬ g.Executed (executions past) place e.2.source)
  /-- A member that is skipped is reported as skipped, if it does not run in another iteration. -/
  reported : SkippedAt events place id → (place = [] ∨ ∀ x ∈ executions events, x.id ≠ id) →
    results.get? id = some { status := .skipped, executions := 0 }

section

variable {g : Graph} {events past : List Event} {place : Place} {f : Frame} {I id : String}
  {e : Nat × Edge} (wf : g.WellFormed) (acyclic : g.Acyclic)
include wf acyclic

/-- The source of an edge out of a region to a member of a frame is in the region of another member,
or outside the frame. -/
theorem Graph.nested_or_outside (member : id ∈ g.membersAt place)
    (repeats : g.Repeats I e.2.source) (leaves : ¬ g.Repeats I id) :
    g.Nested place e.2.source ∨ ¬ g.Counts place e.2.source := by
  obtain ⟨candidate, unrepeated⟩ := (Plane.mem_frameMembers wf acyclic).1 member
  by_cases source : e.2.source ∈ g.candidatesAt place
  · rcases Plane.exists_owner wf acyclic source with source_member | nested
    · -- A member itself: then the iterator must have the frame in its region, and the edge too.
      have alone := ((Plane.mem_frameMembers wf acyclic).1 source_member).2
      cases place with
      | nil => exact absurd repeats (alone I (repeats.reaches.source_mem wf))
      | cons iteration outer =>
          obtain ⟨J, k⟩ := iteration
          have around := (Plane.mem_regionOf wf acyclic).1 source
          have inside := (Plane.mem_regionOf wf acyclic).1 candidate
          rcases repeats.nested around with rfl | outer_repeats | inner_repeats
          · exact absurd inside leaves
          · exact absurd (outer_repeats.trans inside) leaves
          · exact absurd repeats (alone I ((Plane.mem_regionOf wf acyclic).2 inner_repeats))
    · exact Or.inl nested
  · refine Or.inr (not_or.2 ⟨fun around => ?_, source⟩)
    -- The iterator around the frame: what repeats it repeats the member.
    cases place with
    | nil => cases around
    | cons iteration outer =>
        obtain ⟨J, k⟩ := iteration
        have same : J = e.2.source := Option.some.inj around
        have inside := (Plane.mem_regionOf wf acyclic).1 candidate
        exact leaves (repeats.trans (same ▸ inside))

theorem FrameEnds.verdict_cases (ends : FrameEnds g events past place f)
    (member : id ∈ g.membersAt place) (mem : e ∈ g.incoming id) :
    (¬ g.Counts place e.2.source ∧ f.verdict e.1 e.2 = .ignored) ∨
      (g.Counts place e.2.source ∧ g.Carries (executions past) place e ∧
        f.verdict e.1 e.2 = .settled .taken) ∨
      (g.Counts place e.2.source ∧ ¬ g.Carries (executions past) place e ∧
        f.verdict e.1 e.2 = .settled .skipped) := by
  obtain ⟨edge, rfl⟩ := Graph.mem_incoming.1 mem
  have members : f.members = g.membersAt place := ends.sound.shape.members
  exact ends.tracks.knows.verdict_cases wf acyclic ends.sound edge (members ▸ member)
    (ends.not_ahead _)

omit wf acyclic in
/-- An edge out of the region of a member counts as taken if its source was executed. -/
theorem Graph.Nested.carries_iff {ran : List Ran} (nested : g.Nested place e.2.source) :
    g.Carries ran place e ↔ g.Executed ran place e.2.source := by
  constructor
  · rintro (⟨-, fired⟩ | ⟨-, executed⟩)
    · exact fired.executed
    · exact executed
  · exact fun executed => Or.inr ⟨nested, executed⟩

theorem Graph.Nested.counts (nested : g.Nested place id) : g.Counts place id := by
  obtain ⟨O, O_mem, repeats⟩ := nested
  have candidate : O ∈ g.candidatesAt place := Plane.frameMembers_sublist.subset O_mem
  refine Or.inr ?_
  cases place with
  | nil => exact repeats.reaches.target_mem wf
  | cons iteration outer =>
      have outer_repeats := (Plane.mem_regionOf wf acyclic).1 candidate
      exact (Plane.mem_regionOf wf acyclic).2 (outer_repeats.trans repeats)

theorem FrameEnds.judgesLeaving (ends : FrameEnds g events past place f)
    (member : id ∈ g.membersAt place) {results : Entries NodeResult}
    (reported : SkippedAt events place id →
      (place = [] ∨ ∀ x ∈ executions events, x.id ≠ id) → results.get? id = some {}) :
    JudgesLeaving g events past results place f id := by
  refine ⟨fun I e mem repeats leaves => ?_, ends.dispatchedAt_iff member,
    ends.skippedAt_iff member, fun some_edge unfired => ?_, reported⟩
  · rcases Graph.nested_or_outside wf acyclic member repeats leaves with nested | outside
    · refine Or.inr ⟨nested, ?_⟩
      rw [← nested.carries_iff]
      rcases ends.verdict_cases wf acyclic member mem with
        ⟨uncounted, -⟩ | ⟨-, carries, is⟩ | ⟨-, blocked, is⟩
      · exact absurd (nested.counts wf acyclic) uncounted
      · exact ⟨iff_of_true is carries, iff_of_false (by simp [is]) (not_not.2 carries)⟩
      · exact ⟨iff_of_false (by simp [is]) blocked, iff_of_true is blocked⟩
    · refine Or.inl ⟨fun candidate => outside (Or.inr candidate), ?_⟩
      rcases ends.verdict_cases wf acyclic member mem with ⟨-, is⟩ | ⟨counts, -⟩ | ⟨counts, -⟩
      · exact is
      · exact absurd counts outside
      · exact absurd counts outside
  · rw [ends.skippedAt_iff member, Graph.Admits, or_iff_right some_edge, not_exists]
    refine forall_congr' fun e => ?_
    rw [not_and]
    refine forall_congr' fun mem => ?_
    rw [Graph.Carries, or_iff_right fun both => unfired e mem both.2, not_and]

end

/-! ## Into regions -/

/-- What a frame makes of an edge into a member that comes from outside the region around it: the
edge does not count, but if its source was executed, what it came to comes in. -/
structure Disregards (g : Graph) (events past : List Event) (place : Place) (f : Frame)
    (id : String) (e : Nat × Edge) : Prop where
  verdict : f.verdict e.1 e.2 = .ignored
  /-- Only the other edges decide whether the member is dispatched. -/
  dispatched : DispatchedAt events place id ↔
    ∃ d ∈ g.incoming id, g.Counts place d.2.source ∧ g.Carries (executions past) place d
  sources : ∀ tasks, ⟨place, .dispatched tasks⟩ ∈ events → ∀ t ∈ tasks, t.node.id = id →
    (e.2.source ∈ t.sources ↔ g.Executed (executions past) place e.2.source)
  inputs : ∀ tasks, ⟨place, .dispatched tasks⟩ ∈ events → ∀ t ∈ tasks, t.node.id = id →
    ∀ value, t.input.get? e.2.source = some value →
      ∃ x ∈ executions past, x.id = e.2.source ∧ g.homeOf place e.2.source <:+ x.place ∧
        x.Left value

/-- The edge counts in the iteration as it was settled outside: if it was fired, the member is
dispatched with its source among those of its input, and if not, its source is not among them. -/
def KeepsState (g : Graph) (events past : List Event) (place : Place) (id : String)
    (e : Nat × Edge) : Prop :=
  (g.Fired (executions past) place e → DispatchedAt events place id ∧
    ∀ tasks, ⟨place, .dispatched tasks⟩ ∈ events → ∀ t ∈ tasks, t.node.id = id →
      e.2.source ∈ t.sources) ∧
    (¬ g.Fired (executions past) place e →
      ∀ tasks, ⟨place, .dispatched tasks⟩ ∈ events → ∀ t ∈ tasks, t.node.id = id →
        e.2.source ∉ t.sources)

section

variable {g : Graph} {events past : List Event} {place : Place} {f : Frame} {id : String}
  {e : Nat × Edge} (wf : g.WellFormed) (acyclic : g.Acyclic)
include wf acyclic

theorem FrameEnds.disregards (ends : FrameEnds g events past place f)
    (member : id ∈ g.membersAt place) (mem : e ∈ g.incoming id)
    (outside : ¬ g.Counts place e.2.source) : Disregards g events past place f id e := by
  have source : e.2.source ∉ g.candidatesAt place := fun candidate => outside (Or.inr candidate)
  have candidate : id ∈ g.candidatesAt place := Plane.frameMembers_sublist.subset member
  have shown (tasks : List Task) (there : ⟨place, .dispatched tasks⟩ ∈ events) (t : Task)
      (t_mem : t ∈ tasks) (same : t.node.id = id) :
      t.input.get? e.2.source = f.scope.get? e.2.source := by
    have some_task : tasks.map (·.node.id) ≠ [] := List.ne_nil_of_mem (List.mem_map_of_mem t_mem)
    exact ends.tracks.inputs tasks (ends.last _ there rfl some_task) t t_mem e.2.source
      (same ▸ Graph.adj_of_mem_incoming mem) source
  refine ⟨?_, ?_, fun tasks there t t_mem same => ?_,
    fun tasks there t t_mem same value found => ?_⟩
  · rcases ends.verdict_cases wf acyclic member mem with ⟨-, is⟩ | ⟨counts, -⟩ | ⟨counts, -⟩
    · exact is
    · exact absurd counts outside
    · exact absurd counts outside
  · rw [ends.dispatchedAt_iff member]
    constructor
    · rintro (nothing | ⟨d, d_mem, carries⟩)
      · rw [nothing] at mem
        exact absurd mem List.not_mem_nil
      · refine ⟨d, d_mem, ?_, carries⟩
        rcases carries with ⟨counts, -⟩ | ⟨nested, -⟩
        · exact counts
        · exact nested.counts wf acyclic
    · rintro ⟨d, d_mem, -, carries⟩
      exact Or.inr ⟨d, d_mem, carries⟩
  · rw [Task.sources, ← Entries.get?_isSome_iff, shown tasks there t t_mem same,
      Entries.get?_isSome_iff, ends.tracks.knows.mem_keys_iff]
  · rw [shown tasks there t t_mem same] at found
    have value_mem : (e.2.source, value) ∈ f.scope := Entries.mem_of_get? found
    exact ends.tracks.knows.scope.left _ value_mem

omit wf acyclic in
/-- The edge keeps its state exactly if, when it was fired, another edge has the member dispatched,
and when it was not, its source was not executed or the member is skipped. -/
theorem Disregards.keepsState_iff (disregards : Disregards g events past place f id e) :
    KeepsState g events past place id e ↔
      (g.Fired (executions past) place e → DispatchedAt events place id) ∧
        (¬ g.Fired (executions past) place e → DispatchedAt events place id →
          ¬ g.Executed (executions past) place e.2.source) := by
  constructor
  · rintro ⟨taken, untaken⟩
    refine ⟨fun fired => (taken fired).1, fun unfired dispatched executed => ?_⟩
    obtain ⟨tasks, mem, id_mem⟩ := dispatched
    obtain ⟨t, t_mem, same⟩ := List.mem_map.1 id_mem
    exact untaken unfired tasks mem t t_mem same
      ((disregards.sources tasks mem t t_mem same).2 executed)
  · rintro ⟨taken, untaken⟩
    refine ⟨fun fired => ⟨taken fired, fun tasks mem t t_mem same => ?_⟩,
      fun unfired tasks mem t t_mem same source => ?_⟩
    · exact (disregards.sources tasks mem t t_mem same).2 fired.executed
    · have dispatched : DispatchedAt events place id :=
        ⟨tasks, mem, List.mem_map.2 ⟨t, t_mem, same⟩⟩
      exact untaken unfired dispatched ((disregards.sources tasks mem t t_mem same).1 source)

end

/-! ## Runs -/

variable {h : Host ω} {request : RunRequest}

/-- **Edges out of regions.**  In a run of an acyclic workflow that is neither cancelled nor stopped
each frame comes to its end, and its members are dispatched and skipped as they are admitted: an
edge out of a region counts as taken exactly if its source was executed. -/
theorem judgesLeaving_runEvents (alone : h.LeavesRunsAlone)
    (acyclic : (Graph.ofWorkflow request.workflow).Acyclic) {w : World ω}
    (held : w.engine.slotHeld = true)
    (goes_on : (runGraph h request (Graph.ofWorkflow request.workflow) w).stopped = false) :
    let g := Graph.ofWorkflow request.workflow
    let events := runEvents h request g w
    ∀ place first, ⟨place, .entered first⟩ ∈ events →
      ∃ past f later, events = past ++ ⟨place, .finished f⟩ :: later ∧
        ∀ id ∈ g.membersAt place,
          JudgesLeaving g events past (runGraph h request g w).progress.results place f id := by
  intro g events place first entered
  have wf : g.WellFormed := Graph.wellFormed_ofWorkflow request.workflow
  obtain ⟨f', rest, listed, frame_run⟩ := frameRun_runEvents request wf acyclic alone held
  have listed : events = ⟨[], .entered g.topFrame⟩ :: rest := listed
  rw [listed] at entered
  obtain ⟨past, f, ends⟩ := frame_run.exists_frameEnds wf acyclic alone goes_on entered
  rw [← listed] at ends
  obtain ⟨later, split⟩ := ends.split
  refine ⟨past, f, later, split, fun id member => ends.judgesLeaving wf acyclic member ?_⟩
  intro skipped elsewhere
  have all : Tracks g [] events f' := by
    rw [listed]
    exact (frame_run.tracks wf acyclic alone fun _ =>
      ⟨recorded_topFrame wf, tracks_topFrame g⟩).2 goes_on
  have never : ∀ x ∈ executions events, x.id ≠ id := by
    rcases elsewhere with rfl | never
    · rintro x mem rfl
      obtain ⟨settled, blocked⟩ := (all.skipped x.id).1 skipped
      have executed : g.Executed (executions events) [] x.id := ⟨x, mem, rfl, List.nil_suffix⟩
      exact blocked ((all.dispatched x.id).1 ((all.ran x.id settled).1 executed)).2
    · exact never
  have unrun : (runGraph h request g w).progress.Unrun id :=
    frame_run.unrun wf alone (fun x mem => never x (by rw [listed]; exact mem))
      (fun r mem => absurd mem List.not_mem_nil) (Or.inl rfl)
  have known : id ∈ (runGraph h request g w).progress.results.keys := by
    refine frame_run.mem_keys_of_settles wf alone goes_on ?_
    obtain ⟨ids, mem, id_mem⟩ := skipped
    rw [listed] at mem
    have there : ⟨place, .skipped ids⟩ ∈ rest := by simpa using mem
    exact List.mem_flatMap.2 ⟨_, there, id_mem⟩
  rcases unrun with missing | skipped
  · rw [← Entries.get?_isSome_iff, missing] at known
    cases known
  · exact skipped

/-- Two loops and a node behind both.  One loop holds back what it collects, and the other fails. -/
def barrenLoops : Workflow :=
  { nodes := [{ id := "each", config := .iterator { mode := .custom, items := "a" } },
      { id := "batch", config := .collector { batch := true, batchSize := 5 } },
      { id := "once", config := .iterator { mode := .custom, items := "b" } },
      { id := "break", config := .format { mode := .json, template := "\x7b" } },
      { id := "joined", config := .format { template := "-" } }]
    edges := [{ source := "each", target := "batch" }, { source := "once", target := "break" },
      { source := "batch", target := "joined" }, { source := "break", target := "joined" }] }

theorem Graph.acyclic_barrenLoops : (ofWorkflow barrenLoops).Acyclic :=
  acyclic_of_rank String.length (by decide)

theorem Plane.ofGraph_barrenLoops : ofGraph (Graph.ofWorkflow barrenLoops) =
    ⟨Graph.ofWorkflow barrenLoops, [("each", ["batch"]), ("once", ["break"])]⟩ := by
  have regions : (Graph.ofWorkflow barrenLoops).regions =
      [("each", ["batch"]), ("once", ["break"])] := by cbv
  rw [ofGraph, regions]

theorem stopped_barrenLoops : (runGraph (Server.attentive .unavailable) { workflow := barrenLoops }
    (Graph.ofWorkflow barrenLoops) (Server.reserved barrenLoops)).stopped = false := by
  simp only [runGraph, Plane.ofGraph_barrenLoops]
  decide +kernel

theorem judgesLeaving_barrenLoops :
    let g := Graph.ofWorkflow barrenLoops
    let events := runEvents (Server.attentive .unavailable) { workflow := barrenLoops } g
      (Server.reserved barrenLoops)
    ∀ place first, ⟨place, .entered first⟩ ∈ events →
      ∃ past f later, events = past ++ ⟨place, .finished f⟩ :: later ∧
        ∀ id ∈ g.membersAt place,
          JudgesLeaving g events past
            (runGraph (Server.attentive .unavailable) { workflow := barrenLoops } g
              (Server.reserved barrenLoops)).progress.results place f id :=
  judgesLeaving_runEvents (Server.leavesRunsAlone_attentive _) Graph.acyclic_barrenLoops rfl
    stopped_barrenLoops

/-- No edge into the node behind the loops is fired, and still it runs. -/
theorem executed_behind_barrenLoops :
    let g := Graph.ofWorkflow barrenLoops
    let events := runEvents (Server.attentive .unavailable) { workflow := barrenLoops } g
      (Server.reserved barrenLoops)
    let s := runGraph (Server.attentive .unavailable) { workflow := barrenLoops } g
      (Server.reserved barrenLoops)
    g.Acyclic ∧ s.stopped = false ∧
      (∀ e ∈ g.incoming "joined", (∃ I, g.Repeats I e.2.source ∧ ¬ g.Repeats I "joined") ∧
        ¬ g.Fired (executions events) [] e) ∧
      g.Executed (executions events) [] "joined" ∧
      (s.progress.results.get? "joined").map (·.status) = some .completed := by
  intro g events s
  have leaves : ∀ e ∈ g.incoming "joined", ∃ I ∈ ["each", "once"],
      e.2.source ∈ (Plane.ofGraph g).regionOf I ∧ "joined" ∉ (Plane.ofGraph g).regionOf I := by
    simp only [g, Plane.ofGraph_barrenLoops]
    decide
  have unfired : ∀ e ∈ g.incoming "joined", ∀ x ∈ executions events, x.id = e.2.source →
      e.1 ∉ g.takenEdges x.task.node x.ended.execution := by
    simp only [g, events, runEvents, RunRequest.plan, Graph.topFrame, Plane.ofGraph_barrenLoops]
    decide +kernel
  have executed : ∃ x ∈ executions events, x.id = "joined" ∧ [] <:+ x.place := by
    simp only [g, events, runEvents, RunRequest.plan, Graph.topFrame, Plane.ofGraph_barrenLoops]
    decide +kernel
  have reported : (s.progress.results.get? "joined").map (·.status) = some .completed := by
    simp only [g, s, runGraph, Plane.ofGraph_barrenLoops]
    decide +kernel
  refine ⟨Graph.acyclic_barrenLoops, stopped_barrenLoops, fun e mem => ⟨?_, ?_⟩, executed,
    reported⟩
  · obtain ⟨I, -, inside, outside⟩ := leaves e mem
    have repeats {id : String} : id ∈ (Plane.ofGraph g).regionOf I ↔ g.Repeats I id :=
      Plane.mem_regionOf (Graph.wellFormed_ofWorkflow _) Graph.acyclic_barrenLoops
    exact ⟨I, repeats.1 inside, fun inside => outside (repeats.2 inside)⟩
  · rintro ⟨x, x_mem, same, -, fired⟩
    exact unfired e mem x x_mem same fired

/-- **Edges into regions.**  In a run of an acyclic workflow that is neither cancelled nor stopped
an edge that enters a region does not count in the iterations, and its source is among those of the
input exactly if it was executed.  So the edge keeps the state that it was settled with exactly if
the member is dispatched for another edge when it was fired, and is skipped, or the source was not
executed, when it was not. -/
theorem disregards_runEvents (alone : h.LeavesRunsAlone)
    (acyclic : (Graph.ofWorkflow request.workflow).Acyclic) {w : World ω}
    (held : w.engine.slotHeld = true)
    (goes_on : (runGraph h request (Graph.ofWorkflow request.workflow) w).stopped = false) :
    let g := Graph.ofWorkflow request.workflow
    let events := runEvents h request g w
    ∀ I k outer first, ⟨(I, k) :: outer, .entered first⟩ ∈ events →
      ∃ past f later, events = past ++ ⟨(I, k) :: outer, .finished f⟩ :: later ∧
        ∀ id ∈ g.membersAt ((I, k) :: outer), ∀ e ∈ g.incoming id, e.2.source ≠ I →
          e.2.source ∉ (Plane.ofGraph g).regionOf I →
            Disregards g events past ((I, k) :: outer) f id e ∧
              (KeepsState g events past ((I, k) :: outer) id e ↔
                (g.Fired (executions past) outer e → DispatchedAt events ((I, k) :: outer) id) ∧
                (¬ g.Fired (executions past) outer e →
                  DispatchedAt events ((I, k) :: outer) id →
                    ¬ g.Executed (executions past) outer e.2.source)) := by
  intro g events I k outer first entered
  have wf : g.WellFormed := Graph.wellFormed_ofWorkflow request.workflow
  obtain ⟨f', rest, listed, frame_run⟩ := frameRun_runEvents request wf acyclic alone held
  have listed : events = ⟨[], .entered g.topFrame⟩ :: rest := listed
  rw [listed] at entered
  obtain ⟨past, f, ends⟩ := frame_run.exists_frameEnds wf acyclic alone goes_on entered
  rw [← listed] at ends
  obtain ⟨later, split⟩ := ends.split
  refine ⟨past, f, later, split, fun id member e mem other outside => ?_⟩
  have uncounted : ¬ g.Counts ((I, k) :: outer) e.2.source :=
    not_or.2 ⟨fun around => other (Option.some.inj around).symm, outside⟩
  have disregards := ends.disregards wf acyclic member mem uncounted
  have home : g.homeOf ((I, k) :: outer) e.2.source = g.homeOf outer e.2.source :=
    Graph.homeOf_cons_of_not_mem outside
  refine ⟨disregards, disregards.keepsState_iff.trans ?_⟩
  unfold Graph.Fired Graph.Executed
  rw [home]

/-- A loop that is entered from a node that goes on and from one that fails. -/
def enteredLoop : Workflow :=
  { nodes := [{ id := "each", config := .iterator { mode := .custom, items := "a" } },
      { id := "batch", config := .collector { batch := true, batchSize := 5 } },
      { id := "seed", config := .format { template := "-" } },
      { id := "break", config := .format { mode := .json, template := "\x7b" } },
      { id := "stored", config := .format { template := "-" } },
      { id := "printed", config := .format { template := "-" } }]
    edges := [{ source := "each", target := "batch" }, { source := "batch", target := "stored" },
      { source := "seed", target := "stored" }, { source := "each", target := "printed" },
      { source := "break", target := "printed" }] }

theorem Graph.acyclic_enteredLoop : (ofWorkflow enteredLoop).Acyclic :=
  acyclic_of_rank String.length (by decide)

theorem Plane.ofGraph_enteredLoop : ofGraph (Graph.ofWorkflow enteredLoop) =
    ⟨Graph.ofWorkflow enteredLoop, [("each", ["batch", "stored", "printed"])]⟩ := by
  have regions : (Graph.ofWorkflow enteredLoop).regions =
      [("each", ["batch", "stored", "printed"])] := by cbv
  rw [ofGraph, regions]

theorem stopped_enteredLoop : (runGraph (Server.attentive .unavailable) { workflow := enteredLoop }
    (Graph.ofWorkflow enteredLoop) (Server.reserved enteredLoop)).stopped = false := by
  simp only [runGraph, Plane.ofGraph_enteredLoop]
  decide +kernel

theorem disregards_enteredLoop :
    let g := Graph.ofWorkflow enteredLoop
    let events := runEvents (Server.attentive .unavailable) { workflow := enteredLoop } g
      (Server.reserved enteredLoop)
    ∀ I k outer first, ⟨(I, k) :: outer, .entered first⟩ ∈ events →
      ∃ past f later, events = past ++ ⟨(I, k) :: outer, .finished f⟩ :: later ∧
        ∀ id ∈ g.membersAt ((I, k) :: outer), ∀ e ∈ g.incoming id, e.2.source ≠ I →
          e.2.source ∉ (Plane.ofGraph g).regionOf I →
            Disregards g events past ((I, k) :: outer) f id e ∧
              (KeepsState g events past ((I, k) :: outer) id e ↔
                (g.Fired (executions past) outer e → DispatchedAt events ((I, k) :: outer) id) ∧
                (¬ g.Fired (executions past) outer e →
                  DispatchedAt events ((I, k) :: outer) id →
                    ¬ g.Executed (executions past) outer e.2.source)) :=
  disregards_runEvents (Server.leavesRunsAlone_attentive _) Graph.acyclic_enteredLoop rfl
    stopped_enteredLoop

/-- The edge from the node that goes on is fired, and still its target never runs.  The edge from
the node that fails is not fired, and still the failure comes into its target. -/
theorem unkept_states_enteredLoop :
    let g := Graph.ofWorkflow enteredLoop
    let events := runEvents (Server.attentive .unavailable) { workflow := enteredLoop } g
      (Server.reserved enteredLoop)
    let s := runGraph (Server.attentive .unavailable) { workflow := enteredLoop } g
      (Server.reserved enteredLoop)
    g.Acyclic ∧ s.stopped = false ∧
      (∃ e ∈ g.incoming "stored", e.2.source = "seed" ∧ g.Fired (executions events) [] e ∧
        (∀ x ∈ executions events, x.id ≠ "stored") ∧
        (s.progress.results.get? "stored").map (·.status) = some .skipped) ∧
      ∃ e ∈ g.incoming "printed", e.2.source = "break" ∧ ¬ g.Fired (executions events) [] e ∧
        ∃ x ∈ executions events, x.place = [("each", 0)] ∧ x.id = "printed" ∧
          "break" ∈ x.task.sources := by
  intro g events s
  have fired : ∃ e ∈ g.incoming "stored", e.2.source = "seed" ∧ ∃ x ∈ executions events,
      x.id = e.2.source ∧ [] <:+ x.place ∧ e.1 ∈ g.takenEdges x.task.node x.ended.execution := by
    simp only [g, events, runEvents, RunRequest.plan, Graph.topFrame, Plane.ofGraph_enteredLoop]
    decide +kernel
  have never : ∀ x ∈ executions events, x.id ≠ "stored" := by
    simp only [g, events, runEvents, RunRequest.plan, Graph.topFrame, Plane.ofGraph_enteredLoop]
    decide +kernel
  have reported : (s.progress.results.get? "stored").map (·.status) = some .skipped := by
    simp only [g, s, runGraph, Plane.ofGraph_enteredLoop]
    decide +kernel
  have unfired : ∃ e ∈ g.incoming "printed", e.2.source = "break" ∧ ∀ x ∈ executions events,
      x.id = e.2.source → e.1 ∉ g.takenEdges x.task.node x.ended.execution := by
    simp only [g, events, runEvents, RunRequest.plan, Graph.topFrame, Plane.ofGraph_enteredLoop]
    decide +kernel
  have comes_in : ∃ x ∈ executions events, x.place = [("each", 0)] ∧ x.id = "printed" ∧
      "break" ∈ x.task.sources := by
    simp only [g, events, runEvents, RunRequest.plan, Graph.topFrame, Plane.ofGraph_enteredLoop]
    decide +kernel
  obtain ⟨e, e_mem, from_seed, fired⟩ := fired
  obtain ⟨d, d_mem, from_break, unfired⟩ := unfired
  refine ⟨Graph.acyclic_enteredLoop, stopped_enteredLoop,
    ⟨e, e_mem, from_seed, fired, never, reported⟩, d, d_mem, from_break, ?_, comes_in⟩
  rintro ⟨x, x_mem, same, -, along⟩
  exact unfired x x_mem same along

end Flowline
