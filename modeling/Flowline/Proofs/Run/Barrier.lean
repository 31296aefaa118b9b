import Flowline.Proofs.Api.Host
import Flowline.Proofs.Run.Order

/-!
# Nothing runs before its predecessors

`SettledFor` says when a node counts as settled for the frame at a place: a candidate of the frame
is settled in the frame itself, or with the region that it belongs to, and any other node was
settled for the frame around when the region began.

* `FrameRun.barrier`: whatever a frame dispatches, all predecessors are settled for the frame.
* `dispatched_after_predecessors`: the same of a whole run, and what it means for the log.
-/

namespace Flowline

open Api

variable {ω : Type}

/-! ## Histories, event by event -/

/-- Each event is right after what came before. -/
def Along (right : List Event → Event → Prop) : List Event → List Event → Prop
  | _, [] => True
  | past, e :: rest => right past e ∧ Along right (past ++ [e]) rest

section

variable {right : List Event → Event → Prop} {past first second : List Event}

theorem along_append :
    Along right past (first ++ second) ↔
      Along right past first ∧ Along right (past ++ first) second := by
  induction first generalizing past with
  | nil => simp [Along]
  | cons e rest ih =>
      rw [List.cons_append, Along, Along, ih, and_assoc, List.append_assoc]
      rfl

theorem Along.at {e : Event} (along : Along right past (first ++ e :: second)) :
    right (past ++ first) e := (along_append.1 along).2.1

theorem along_innerEvents {g : Graph} {place : Place} {f : Frame} {r : PendingRegion}
    {parts : Nat → List Event} {count : Nat}
    (each : ∀ k < count, Along right (past ++ g.innerEvents place f r parts k)
      (⟨(r.iterator, k) :: place, .entered (g.childFrame f r k)⟩ :: parts k)) :
    Along right past (g.innerEvents place f r parts count) := by
  induction count with
  | zero => trivial
  | succ count ih =>
      rw [innerEvents_succ, along_append]
      exact ⟨ih fun k lt => each k (Nat.lt_succ_of_lt lt), each count (Nat.lt_succ_self count)⟩

theorem along_of_forall (all : ∀ past, ∀ e ∈ first, right past e) : Along right past first := by
  induction first generalizing past with
  | nil => trivial
  | cons e rest ih =>
      exact ⟨all past e List.mem_cons_self,
        ih fun past e mem => all past e (List.mem_cons_of_mem _ mem)⟩

end

/-! ## What counts as settled -/

/-- The member was skipped in the frame at the place, or its result was applied. -/
def SettledAt (past : List Event) (place : Place) (id : String) : Prop :=
  (∃ ids, ⟨place, .skipped ids⟩ ∈ past ∧ id ∈ ids) ∨
    ∃ t ended, ⟨place, .settled t ended⟩ ∈ past ∧ t.node.id = id

/-- The region of an iterator never runs in the frame at the place, since the iterator was skipped
or left no region, or it has run to the end of its last iteration. -/
def RegionOver (past : List Event) (place : Place) (iterator : String) : Prop :=
  (∃ ids, ⟨place, .skipped ids⟩ ∈ past ∧ iterator ∈ ids) ∨
    ∃ t ended, ⟨place, .settled t ended⟩ ∈ past ∧ t.node.id = iterator ∧
      ∀ r, Frame.regionLeft t.node ended.execution = some r → ⟨place, .closed r⟩ ∈ past ∧
        ∀ k < r.payloads.length, ∃ f, ⟨(iterator, k) :: place, .finished f⟩ ∈ past

/-- The candidate is settled in the frame at the place: as a member, or with the region of one. -/
def SettledIn (g : Graph) (place : Place) (past : List Event) (id : String) : Prop :=
  (id ∈ g.membersAt place ∧ SettledAt past place id) ∨
    ∃ O ∈ g.membersAt place, g.Repeats O id ∧ RegionOver past place O

/-- The node is settled for the frame at the place.  What is outside the region around the frame
must have been settled for the frame around before the region ran its first iteration. -/
def SettledFor (g : Graph) : Place → List Event → String → Prop
  | [], past, id => SettledIn g [] past id
  | (iterator, k) :: outer, past, id =>
    if id ∈ (Plane.ofGraph g).regionOf iterator then SettledIn g ((iterator, k) :: outer) past id
    else ∃ earlier r ready later, past = earlier ++ ⟨outer, .opened r ready⟩ :: later ∧
      r.iterator = iterator ∧ (∀ e ∈ earlier, ∀ j, ¬ (iterator, j) :: outer <:+ e.place) ∧
      SettledFor g outer earlier id

section

variable {g : Graph} {place : Place} {past more : List Event} {id : String}

theorem SettledAt.mono (settled : SettledAt past place id) (sub : past ⊆ more) :
    SettledAt more place id := by
  rcases settled with ⟨ids, mem, skipped⟩ | ⟨t, ended, mem, same⟩
  · exact Or.inl ⟨ids, sub mem, skipped⟩
  · exact Or.inr ⟨t, ended, sub mem, same⟩

theorem RegionOver.mono (finished : RegionOver past place id) (sub : past ⊆ more) :
    RegionOver more place id := by
  rcases finished with ⟨ids, mem, skipped⟩ | ⟨t, ended, mem, same, all⟩
  · exact Or.inl ⟨ids, sub mem, skipped⟩
  · refine Or.inr ⟨t, ended, sub mem, same, fun r left => ?_⟩
    obtain ⟨closed, finished⟩ := all r left
    refine ⟨sub closed, fun k lt => ?_⟩
    obtain ⟨f, mem⟩ := finished k lt
    exact ⟨f, sub mem⟩

theorem SettledIn.mono (settled : SettledIn g place past id) (sub : past ⊆ more) :
    SettledIn g place more id := by
  rcases settled with ⟨member, settled⟩ | ⟨O, O_mem, repeats, finished⟩
  · exact Or.inl ⟨member, settled.mono sub⟩
  · exact Or.inr ⟨O, O_mem, repeats, finished.mono sub⟩

theorem settledFor_cons_of_mem {I : String} {k : Nat} {outer : Place}
    (candidate : id ∈ (Plane.ofGraph g).regionOf I) :
    SettledFor g ((I, k) :: outer) past id ↔ SettledIn g ((I, k) :: outer) past id := by
  rw [SettledFor, if_pos candidate]

theorem settledFor_cons_of_not_mem {I : String} {k : Nat} {outer : Place}
    (stranger : id ∉ (Plane.ofGraph g).regionOf I) :
    SettledFor g ((I, k) :: outer) past id ↔
      ∃ earlier r ready later, past = earlier ++ ⟨outer, .opened r ready⟩ :: later ∧
        r.iterator = I ∧ (∀ e ∈ earlier, ∀ j, ¬ (I, j) :: outer <:+ e.place) ∧
        SettledFor g outer earlier id := by
  rw [SettledFor, if_neg stranger]

theorem SettledFor.mono (settled : SettledFor g place past id) (later : List Event) :
    SettledFor g place (past ++ later) id := by
  cases place with
  | nil => exact SettledIn.mono settled (List.subset_append_left _ _)
  | cons iteration outer =>
      obtain ⟨I, k⟩ := iteration
      by_cases candidate : id ∈ (Plane.ofGraph g).regionOf I
      · rw [settledFor_cons_of_mem candidate] at settled ⊢
        exact settled.mono (List.subset_append_left _ _)
      · rw [settledFor_cons_of_not_mem candidate] at settled ⊢
        obtain ⟨earlier, r, ready, rest, rfl, same, before, settled⟩ := settled
        exact ⟨earlier, r, ready, rest ++ later, by simp, same, before, settled⟩

theorem SettledIn.settledFor (settled : SettledIn g place past id)
    (candidate : id ∈ g.candidatesAt place) : SettledFor g place past id := by
  cases place with
  | nil => exact settled
  | cons iteration outer => exact (settledFor_cons_of_mem candidate).2 settled

end

/-! ## What a frame has on record -/

/-- What is behind a frame is on record. -/
structure Recorded (g : Graph) (place : Place) (past : List Event) (f : Frame) : Prop where
  settled : ∀ id ∈ f.settled, SettledAt past place id
  finished : ∀ O ∈ f.members, ¬ f.Unfinished O → RegionOver past place O
  pending : ∀ r ∈ f.pending, ∃ t ended, ⟨place, .settled t ended⟩ ∈ past ∧
    Frame.regionLeft t.node ended.execution = some r
  untouched : ∀ e ∈ past, ∀ I k, (I, k) :: place <:+ e.place → ¬ f.Unfinished I
  outside : ∀ id ∈ g.candidatesAt place, ∀ s, g.Adj s id → s ∉ g.candidatesAt place →
    SettledFor g place past s

section

variable {g : Graph} {place : Place} {past more : List Event} {id : String}

/-- A predecessor that is behind a frame is settled for it. -/
theorem Recorded.settledFor (wf : g.WellFormed) (acyclic : g.Acyclic) {f : Frame}
    (recorded : Recorded g place past f) (sound : f.Sound g place) {s : String}
    (candidate : id ∈ g.candidatesAt place) (adj : g.Adj s id) (behind : ¬ f.Ahead g s) :
    SettledFor g place past s := by
  by_cases inside : s ∈ g.candidatesAt place
  · have members : f.members = g.membersAt place := sound.shape.members
    refine SettledIn.settledFor ?_ inside
    rcases sound.shape.mem_or_owned wf acyclic inside with member | ⟨O, O_mem, repeats⟩
    · have settled : s ∈ f.settled := by
        by_contra fresh
        exact behind (Or.inl ⟨member, fresh⟩)
      exact Or.inl ⟨members ▸ member, recorded.settled s settled⟩
    · have finished : ¬ f.Unfinished O := fun unfinished => behind (Or.inr ⟨O, unfinished, repeats⟩)
      exact Or.inr ⟨O, members ▸ O_mem, repeats, recorded.finished O O_mem finished⟩
  · exact recorded.outside id candidate s adj inside

theorem Recorded.begun {request : RunRequest} {f f₁ : Frame} {s s₁ : Ongoing ω}
    (recorded : Recorded g place past f) (begun : Begun request g place f s f₁ s₁) :
    Recorded g place (past ++ [⟨place, .skipped (f.skippedNext (Plane.ofGraph g))⟩]) f₁ where
  settled id mem := by
    rw [begun.settled_eq] at mem
    rcases List.mem_append.1 mem with skipped | old
    · exact Or.inl ⟨_, by simp, skipped⟩
    · exact (recorded.settled id old).mono (List.subset_append_left _ _)
  finished O O_mem finished := by
    rw [begun.follows.members] at O_mem
    by_cases skipped : O ∈ f.skippedNext (Plane.ofGraph g)
    · exact Or.inl ⟨_, by simp, skipped⟩
    · refine (recorded.finished O O_mem fun unfinished => finished ?_).mono
        (List.subset_append_left _ _)
      rw [Frame.unfinished_iff] at unfinished ⊢
      rw [begun.follows.members, begun.pending_eq, begun.settled_eq, List.mem_append, not_or]
      exact ⟨O_mem, unfinished.2.imp (fun fresh => ⟨skipped, fresh⟩) id⟩
  pending r mem := by
    rw [begun.pending_eq] at mem
    obtain ⟨t, ended, there, left⟩ := recorded.pending r mem
    exact ⟨t, ended, List.mem_append_left _ there, left⟩
  untouched e mem I k inside unfinished := by
    rcases List.mem_append.1 mem with old | new
    · exact recorded.untouched e old I k inside (begun.follows.unfinished unfinished)
    · rw [List.mem_singleton.1 new] at inside
      exact not_cons_suffix _ _ inside
  outside id candidate s adj stranger := (recorded.outside id candidate s adj stranger).mono _

theorem Recorded.waved {f₁ f₂ : Frame} {s₁ s₂ : Ongoing ω} {ids : List String}
    {ran : List (Task × Ended)} (recorded : Recorded g place past f₁)
    (waved : Waved g f₁ s₁ ids ran f₂ s₂) (goes_on : s₂.stopped = false) :
    Recorded g place (past ++ ⟨place, .dispatched (f₁.tasks (Plane.ofGraph g) ids)⟩ ::
      ran.map fun r => ⟨place, .settled r.1 r.2⟩) f₂ := by
  have there {r : Task × Ended} (mem : r ∈ ran) : ⟨place, .settled r.1 r.2⟩ ∈
      past ++ ⟨place, .dispatched (f₁.tasks (Plane.ofGraph g) ids)⟩ ::
        ran.map fun r => ⟨place, .settled r.1 r.2⟩ :=
    List.mem_append_right _ (List.mem_cons_of_mem _ (List.mem_map_of_mem mem))
  have has_run {id : String} (mem : id ∈ ids) : ∃ r ∈ ran, r.1.node.id = id := by
    rw [← waved.ranIds_eq goes_on] at mem
    exact List.mem_map.1 mem
  refine ⟨fun id mem => ?_, fun O O_mem finished => ?_, fun r mem => ?_,
    fun e mem I k inside unfinished => ?_, fun id candidate s adj stranger => ?_⟩
  · rw [waved.settled_eq] at mem
    rcases List.mem_append.1 mem with new | old
    · obtain ⟨r, r_mem, same⟩ := has_run new
      exact Or.inr ⟨r.1, r.2, there r_mem, same⟩
    · exact (recorded.settled id old).mono (List.subset_append_left _ _)
  · rw [waved.follows.members] at O_mem
    by_cases new : O ∈ ids
    · obtain ⟨r, r_mem, same⟩ := has_run new
      refine Or.inr ⟨r.1, r.2, there r_mem, same, fun region left => absurd ?_ finished⟩
      rw [Frame.unfinished_iff, waved.follows.members, waved.pending_eq]
      refine ⟨O_mem, Or.inr ⟨region, ?_, (Frame.iterator_regionLeft left).trans same⟩⟩
      exact List.mem_append_right _ (List.mem_filterMap.2 ⟨r, r_mem, left⟩)
    · refine (recorded.finished O O_mem fun unfinished => finished ?_).mono
        (List.subset_append_left _ _)
      rw [Frame.unfinished_iff] at unfinished ⊢
      rw [waved.follows.members, waved.settled_eq, waved.pending_eq, List.mem_append, not_or]
      refine ⟨O_mem, unfinished.2.imp (fun fresh => ⟨new, fresh⟩) ?_⟩
      rintro ⟨region, waits, same⟩
      exact ⟨region, List.mem_append_left _ waits, same⟩
  · rw [waved.pending_eq] at mem
    rcases List.mem_append.1 mem with old | new
    · obtain ⟨t, ended, before, left⟩ := recorded.pending r old
      exact ⟨t, ended, List.mem_append_left _ before, left⟩
    · obtain ⟨x, x_mem, left⟩ := List.mem_filterMap.1 new
      exact ⟨x.1, x.2, there x_mem, left⟩
  · rcases List.mem_append.1 mem with old | new
    · exact recorded.untouched e old I k inside (waved.follows.unfinished unfinished)
    · have here : e.place = place := by
        rcases List.mem_cons.1 new with rfl | settled
        · rfl
        · obtain ⟨x, -, rfl⟩ := List.mem_map.1 settled
          rfl
      rw [here] at inside
      exact not_cons_suffix _ _ inside
  · exact (recorded.outside id candidate s adj stranger).mono _

/-- What is on record when a region has run to its end. -/
theorem Recorded.region {f : Frame} {r : PendingRegion} {outputs : List (Entries Json)}
    {inner : List Event} (recorded : Recorded g place past f) (sound : f.Sound g place)
    (pending : r ∈ f.pending)
    (inside : ∀ e ∈ inner, ∃ k, (r.iterator, k) :: place <:+ e.place)
    (all : ∀ k < r.payloads.length, ∃ f, ⟨(r.iterator, k) :: place, .finished f⟩ ∈ inner) :
    Recorded g place (past ++ ⟨place, .opened r true⟩ :: (inner ++ [⟨place, .closed r⟩]))
      ((f.takeRegion r.iterator).settleRegion r outputs) where
  settled id mem := (recorded.settled id mem).mono (List.subset_append_left _ _)
  finished O O_mem finished := by
    by_cases same : O = r.iterator
    · subst same
      obtain ⟨t, ended, before, left⟩ := recorded.pending r pending
      refine Or.inr ⟨t, ended, by simp [before], (Frame.iterator_regionLeft left).symm, ?_⟩
      intro r' left'
      rw [left] at left'
      cases left'
      refine ⟨by simp, fun k lt => ?_⟩
      obtain ⟨f, mem⟩ := all k lt
      exact ⟨f, by simp [mem]⟩
    · refine (recorded.finished O O_mem fun unfinished => finished ?_).mono
        (List.subset_append_left _ _)
      rw [Frame.unfinished_iff] at unfinished ⊢
      refine unfinished.imp_right (Or.imp_right ?_)
      rintro ⟨region, waits, rfl⟩
      exact ⟨region, Frame.mem_pending_takeRegion.2 ⟨waits, same⟩, rfl⟩
  pending region mem := by
    obtain ⟨t, ended, before, left⟩ :=
      recorded.pending region (Frame.mem_pending_takeRegion.1 mem).1
    exact ⟨t, ended, List.mem_append_left _ before, left⟩
  untouched e mem I k within unfinished := by
    rcases List.mem_append.1 mem with old | new
    · exact recorded.untouched e old I k within (Frame.follows_settleRegion.unfinished unfinished)
    · by_cases here : e.place = place
      · rw [here] at within
        exact not_cons_suffix _ _ within
      · have e_inner : e ∈ inner := by
          rcases List.mem_cons.1 new with rfl | new
          · exact absurd rfl here
          · rcases List.mem_append.1 new with e_inner | last
            · exact e_inner
            · rw [List.mem_singleton.1 last] at here
              exact absurd rfl here
        obtain ⟨j, deeper⟩ := inside e e_inner
        cases eq_of_suffix_of_length_eq within deeper rfl
        exact not_unfinished_settleRegion sound pending unfinished
  outside id candidate s adj stranger := (recorded.outside id candidate s adj stranger).mono _

/-- What is on record when an iteration begins. -/
theorem Recorded.child (wf : g.WellFormed) (acyclic : g.Acyclic) {f : Frame} {r : PendingRegion}
    {k : Nat} {inner : List Event} (recorded : Recorded g place past f) (sound : f.Sound g place)
    (pending : r ∈ f.pending) (ready : f.regionReady (Plane.ofGraph g) r.iterator = true)
    (others : ∀ e ∈ inner, ∃ j, j ≠ k ∧ (r.iterator, j) :: place <:+ e.place) :
    Recorded g ((r.iterator, k) :: place)
      (past ++ ⟨place, .opened r true⟩ ::
        (inner ++ [⟨(r.iterator, k) :: place, .entered (g.childFrame f r k)⟩]))
      (g.childFrame f r k) := by
  have settled := sound.pending_settled r pending
  have member := sound.settled_sub settled
  have candidate := sound.shape.mem_candidates member
  have unfinished : f.Unfinished r.iterator :=
    Frame.unfinished_iff.2 ⟨member, Or.inr ⟨r, pending, rfl⟩⟩
  have new (e : Event) (mem : e ∈ past) (j : Nat) : ¬ (r.iterator, j) :: place <:+ e.place :=
    fun inside => recorded.untouched e mem _ j inside unfinished
  refine ⟨fun id mem => absurd mem List.not_mem_nil, fun O O_mem finished => absurd ?_ finished,
    fun r mem => absurd mem List.not_mem_nil, fun e mem I j inside _ => ?_,
    fun id in_region s adj outside => ?_⟩
  · exact Frame.unfinished_iff.2 ⟨O_mem, Or.inl List.not_mem_nil⟩
  · have here := (List.suffix_cons (I, j) _).trans inside
    rcases List.mem_append.1 mem with old | mem
    · exact absurd here (new e old k)
    · rcases List.mem_cons.1 mem with rfl | mem
      · exact absurd here (not_cons_suffix _ _)
      · rcases List.mem_append.1 mem with other | last
        · obtain ⟨i, differs, deeper⟩ := others e other
          cases eq_of_suffix_of_length_eq here deeper rfl
          exact absurd rfl differs
        · rw [List.mem_singleton.1 last] at inside
          exact absurd inside (not_cons_suffix _ _)
  · have repeats : g.Repeats r.iterator id := (Plane.mem_regionOf wf acyclic).1 in_region
    refine (settledFor_cons_of_not_mem outside).2 ⟨past, r, true, _, rfl, rfl, new, ?_⟩
    by_cases same : s = r.iterator
    · have members : f.members = g.membersAt place := sound.shape.members
      rw [same]
      exact SettledIn.settledFor (Or.inl ⟨members ▸ member, recorded.settled _ settled⟩) candidate
    · have apart : ¬ g.InUnit r.iterator s := by
        rintro (here | inside)
        · exact same here
        · exact outside ((Plane.mem_regionOf wf acyclic).2 inside)
      exact recorded.settledFor wf acyclic sound
        (sound.shape.scope.closed _ candidate id repeats) adj
        (sound.not_ahead_of_regionReady wf acyclic ready repeats adj apart)

end

/-! ## Runs -/

/-- Whatever is dispatched has all its predecessors settled. -/
def Barred (g : Graph) (past : List Event) (e : Event) : Prop :=
  ∀ tasks, e.what = .dispatched tasks → ∀ t ∈ tasks, ∀ s, g.Adj s t.node.id →
    SettledFor g e.place past s

variable {h : Host ω} {request : RunRequest} {g : Graph}

theorem barred_of_ne {past : List Event} {e : Event} (other : ∀ tasks, e.what ≠ .dispatched tasks) :
    Barred g past e := fun tasks same => absurd same (other tasks)

theorem FrameRun.barrier (wf : g.WellFormed) (acyclic : g.Acyclic) (alone : h.LeavesRunsAlone)
    {place : Place} {f f' : Frame} {s s' : Ongoing ω} {events : List Event}
    (frame_run : FrameRun h request g place f s events f' s') {past : List Event}
    (recorded : s.stopped = false → Recorded g place past f) :
    Along (Barred g) past events := by
  induction frame_run generalizing past with
  | stopped held stopped => trivial
  | finished begun done => exact ⟨barred_of_ne (by simp), barred_of_ne (by simp), trivial⟩
  | @wave place f f₁ f₂ f' s s₁ s₂ s' ids ran events begun ready dispatched next rest ih =>
      have waved := begun.waved wf alone ready dispatched next
      have sound := begun.sound₁ wf
      have recorded₁ := (recorded begun.goes_on).begun begun
      refine ⟨barred_of_ne (by simp), ?_⟩
      rw [← List.cons_append, along_append]
      refine ⟨⟨?_, along_of_forall ?_⟩, ih fun goes_on => recorded₁.waved waved goes_on⟩
      · rintro tasks same t t_mem s adj
        cases same
        have is_ready : t.node.id ∈ f₁.readyMembers (Plane.ofGraph g) := by
          rw [ready, ← waved.tasks]
          exact List.mem_map_of_mem t_mem
        exact recorded₁.settledFor wf acyclic sound
          (sound.shape.mem_candidates ((Frame.mem_readyMembers _).1 is_ready).1) adj
          (sound.not_ahead_of_ready wf acyclic is_ready adj)
      · rintro past e mem
        obtain ⟨r, -, rfl⟩ := List.mem_map.1 mem
        exact barred_of_ne (by simp)
  | @region place f f₁ f' s s₁ s' r count states parts frames outputs events begun pending ready
      iterates first each outputs_eq rest each_ih ih =>
      have sound := begun.sound₁ wf
      have recorded₁ := (recorded begun.goes_on).begun begun
      have within := within_innerEvents wf acyclic alone each
      refine ⟨barred_of_ne (by simp), barred_of_ne (by simp), ?_⟩
      rw [along_append]
      refine ⟨along_innerEvents fun k lt => ⟨barred_of_ne (by simp), ?_⟩,
        barred_of_ne (by simp), ?_⟩
      · have others (e : Event) (mem : e ∈ g.innerEvents place f₁ r parts k) :
            ∃ j, j ≠ k ∧ (r.iterator, j) :: place <:+ e.place := by
          obtain ⟨j, before, mem⟩ := mem_innerEvents.1 mem
          exact ⟨j, Nat.ne_of_lt before, within j (Nat.lt_trans before lt) e mem⟩
        have along := each_ih k lt fun _ => recorded₁.child wf acyclic sound pending ready others
        simpa using along
      · have inside (e : Event) (mem : e ∈ g.innerEvents place f₁ r parts count) :
            ∃ k, (r.iterator, k) :: place <:+ e.place := by
          obtain ⟨k, lt, mem⟩ := mem_innerEvents.1 mem
          exact ⟨k, within k lt e mem⟩
        have along := ih fun goes_on => by
          refine recorded₁.region sound pending inside fun k lt => ?_
          obtain ⟨all, going⟩ :=
            iterates.complete alone (begun.held_first first) each goes_on
          rw [← all] at lt
          have ended := (each k lt).exists_finished wf (going k lt)
          exact ⟨_, mem_innerEvents.2 ⟨k, lt, Or.inr ended.1⟩⟩
        simpa using along

theorem recorded_topFrame (wf : g.WellFormed) :
    Recorded g [] [⟨[], .entered g.topFrame⟩] g.topFrame where
  settled _ mem := absurd mem List.not_mem_nil
  finished _ O_mem finished :=
    absurd (Frame.unfinished_iff.2 ⟨O_mem, Or.inl List.not_mem_nil⟩) finished
  pending _ mem := absurd mem List.not_mem_nil
  untouched e mem I k inside := by
    rw [List.mem_singleton.1 mem] at inside
    exact absurd inside (not_cons_suffix _ _)
  outside _ _ s adj stranger := absurd (adj.source_mem wf) stranger

/-- An iterator whose region has a predecessor outside. -/
def fedLoop : Workflow :=
  { nodes := [{ id := "each", config := .iterator { mode := .custom, items := "a\nb" } },
      { id := "seed", config := .format { template := "-" } },
      { id := "count", config := .counter { limit := 1 } }]
    edges := [{ source := "each", target := "count" }, { source := "seed", target := "count" }] }

end Flowline
