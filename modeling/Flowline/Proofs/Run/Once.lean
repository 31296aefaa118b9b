import Flowline.Proofs.Run.Locality

/-!
# Every frame settles its members once

In a run that is not stopped each frame comes to its end, with each of its members settled once and
no region left to run (`FrameRun.settles_once`).
-/

namespace Flowline

variable {ω : Type}

/-- The members that are settled in the frame at a place, in order. -/
def membersSettled (place : Place) (events : List Event) : List String :=
  events.flatMap fun e => if e.place = place then e.settles else []

/-- The frame at a place has come to its end with each of its members settled once. -/
structure FrameDone (g : Graph) (events : List Event) (place : Place) : Prop where
  settled : (membersSettled place events).Perm (g.membersAt place)
  finished : ∃ f, ⟨place, .finished f⟩ ∈ events ∧
    f.settled.Perm (g.membersAt place) ∧ f.pending = []

/-! ## Lists of events -/

section

variable {place : Place} {first second events : List Event}

theorem membersSettled_append (place : Place) (first second : List Event) :
    membersSettled place (first ++ second) =
      membersSettled place first ++ membersSettled place second := List.flatMap_append

theorem membersSettled_cons (place : Place) (e : Event) (events : List Event) :
    membersSettled place (e :: events) =
      (if e.place = place then e.settles else []) ++ membersSettled place events := rfl

theorem membersSettled_of_forall_ne (away : ∀ e ∈ events, e.place ≠ place) :
    membersSettled place events = [] := by
  rw [membersSettled, List.flatMap_eq_nil_iff]
  exact fun e mem => if_neg (away e mem)

theorem membersSettled_flatMap (place : Place) (numbers : List Nat) (parts : Nat → List Event) :
    membersSettled place (numbers.flatMap parts) =
      numbers.flatMap fun k => membersSettled place (parts k) := List.flatMap_assoc

theorem flatMap_range_eq_single {α : Type} {parts : Nat → List α} {count k : Nat} (lt : k < count)
    (others : ∀ j < count, j ≠ k → parts j = []) : (List.range count).flatMap parts = parts k := by
  induction count with
  | zero => exact absurd lt (Nat.not_lt_zero k)
  | succ count ih =>
      rw [List.range_succ, List.flatMap_append, List.flatMap_singleton]
      by_cases last : k = count
      · subst last
        have before : (List.range k).flatMap parts = [] := by
          rw [List.flatMap_eq_nil_iff]
          intro j mem
          have lower := List.mem_range.1 mem
          exact others j (Nat.lt_succ_of_lt lower) (Nat.ne_of_lt lower)
        rw [before, List.nil_append]
      · rw [ih (by omega) fun j lower => others j (Nat.lt_succ_of_lt lower),
          others count (Nat.lt_succ_self count) (Ne.symm last), List.append_nil]

theorem membersSettled_settled (ran : List (Task × Ended)) (place q : Place) :
    membersSettled q (ran.map fun r => ⟨place, .settled r.1 r.2⟩) = [] := by
  rw [membersSettled, List.flatMap_eq_nil_iff]
  intro e mem
  obtain ⟨r, -, rfl⟩ := List.mem_map.1 mem
  exact ite_self _

end

/-! ## Members -/

namespace Frame

variable {g : Graph} {place : Place} {f f' : Frame}

/-- What was not settled is settled on the way, or is not settled yet. -/
theorem Sound.unsettled_perm (sound : f.Sound g place) (sound' : f'.Sound g place)
    (follows : Follows f f') {new : List String} (settled : f'.settled = new ++ f.settled) :
    f.unsettled.Perm (new ++ f'.unsettled) := by
  have distinct := sound'.settled_nodup
  rw [settled, List.nodup_append] at distinct
  have nodup : (new ++ f'.unsettled).Nodup := by
    refine List.nodup_append.2 ⟨distinct.1, sound'.nodup_unsettled, ?_⟩
    rintro id mem _ open_ rfl
    exact (mem_unsettled.1 open_).2 (settled ▸ List.mem_append_left _ mem)
  refine (List.perm_ext_iff_of_nodup sound.nodup_unsettled nodup).2 fun id => ?_
  rw [List.mem_append, mem_unsettled, mem_unsettled, follows.members, settled, List.mem_append]
  constructor
  · rintro ⟨member, fresh⟩
    by_cases now : id ∈ new
    · exact Or.inl now
    · exact Or.inr ⟨member, not_or.2 ⟨now, fresh⟩⟩
  · rintro (now | ⟨member, fresh⟩)
    · have member := sound'.settled_sub (settled ▸ List.mem_append_left _ now)
      exact ⟨follows.members ▸ member, fun old => distinct.2.2 id now id old rfl⟩
    · exact ⟨member, fun old => fresh (Or.inr old)⟩

/-- A frame with nothing left has settled its members, each once. -/
theorem Sound.settled_perm (sound : f.Sound g place) (done : ∀ u, ¬ f.Unfinished u) :
    f.settled.Perm (g.membersAt place) ∧ f.pending = [] := by
  have members : f.members = g.membersAt place := sound.shape.members
  rw [← members]
  constructor
  · refine (List.perm_ext_iff_of_nodup sound.settled_nodup sound.shape.nodup_members).2 fun id =>
      ⟨fun mem => sound.settled_sub mem, fun member => ?_⟩
    by_contra fresh
    exact done id (unfinished_iff.2 ⟨member, Or.inl fresh⟩)
  · refine List.eq_nil_iff_forall_not_mem.2 fun r mem => done r.iterator ?_
    exact unfinished_iff.2 ⟨sound.settled_sub (sound.pending_settled r mem), Or.inr ⟨r, mem, rfl⟩⟩

end Frame

/-! ## Waves and regions -/

theorem ne_of_inside {place q : Place} {iteration : String × Nat}
    (inside : iteration :: place <:+ q) : place ≠ q := by
  rintro rfl
  exact not_cons_suffix _ _ inside

theorem FrameDone.mono {g : Graph} {part events : List Event} {q : Place}
    (done : FrameDone g part q) (sub : part ⊆ events)
    (same : membersSettled q events = membersSettled q part) : FrameDone g events q where
  settled := same ▸ done.settled
  finished := by
    obtain ⟨f, mem, ended⟩ := done.finished
    exact ⟨f, sub mem, ended⟩

theorem membersSettled_wave {place q : Place} (apart : place ≠ q) {skipped : List String}
    {tasks : List Task} {ran : List (Task × Ended)} {events : List Event} :
    membersSettled q (⟨place, .skipped skipped⟩ :: ⟨place, .dispatched tasks⟩ ::
        (ran.map (fun r => ⟨place, .settled r.1 r.2⟩) ++ events)) = membersSettled q events := by
  rw [membersSettled_cons, membersSettled_cons, if_neg apart, if_neg apart, membersSettled_append,
    membersSettled_settled]
  rfl

section

variable {g : Graph} {place q : Place} {f f₁ : Frame} {r : PendingRegion}
  {parts : Nat → List Event} {count : Nat} {events : List Event}

theorem membersSettled_region (apart : place ≠ q) :
    membersSettled q (⟨place, .skipped (f.skippedNext (Plane.ofGraph g))⟩ ::
      ⟨place, .opened r true⟩ ::
        (g.innerEvents place f₁ r parts count ++ ⟨place, .closed r⟩ :: events)) =
      membersSettled q (g.innerEvents place f₁ r parts count) ++ membersSettled q events := by
  rw [membersSettled_cons, membersSettled_cons, membersSettled_append, membersSettled_cons,
    if_neg apart, if_neg apart, if_neg apart]
  rfl

variable (within : ∀ k < count, ∀ e,
  e = ⟨(r.iterator, k) :: place, .entered (g.childFrame f₁ r k)⟩ ∨ e ∈ parts k →
    (r.iterator, k) :: place <:+ e.place)
include within

/-- The iterations of a region settle nothing in frames outside it. -/
theorem membersSettled_innerEvents_of_outside (outside : ∀ k, ¬ (r.iterator, k) :: place <:+ q) :
    membersSettled q (g.innerEvents place f₁ r parts count) = [] :=
  membersSettled_of_forall_ne fun e mem same => by
    obtain ⟨k, lt, mem⟩ := mem_innerEvents.1 mem
    exact outside k (same ▸ within k lt e mem)

/-- What is settled in a frame inside a region is settled in its iteration. -/
theorem membersSettled_innerEvents {k : Nat} (lt : k < count)
    (inside : (r.iterator, k) :: place <:+ q) :
    membersSettled q (g.innerEvents place f₁ r parts count) = membersSettled q (parts k) := by
  rw [Graph.innerEvents, membersSettled_flatMap, flatMap_range_eq_single lt]
  · simp [membersSettled_cons, Event.settles]
  · intro j j_lt differs
    refine membersSettled_of_forall_ne fun e mem same => differs ?_
    have deeper := within j j_lt e (List.mem_cons.1 mem)
    rw [same] at deeper
    cases eq_of_suffix_of_length_eq deeper inside rfl
    rfl

/-- A frame that is done in an iteration is done, if nothing comes back to it. -/
theorem FrameDone.of_iteration {k : Nat} (done : FrameDone g (parts k) q) (lt : k < count)
    (inside : (r.iterator, k) :: place <:+ q) (away : membersSettled q events = []) :
    FrameDone g (⟨place, .skipped (f.skippedNext (Plane.ofGraph g))⟩ :: ⟨place, .opened r true⟩ ::
      (g.innerEvents place f₁ r parts count ++ ⟨place, .closed r⟩ :: events)) q := by
  refine done.mono (fun e mem => ?_) ?_
  · have there : e ∈ g.innerEvents place f₁ r parts count :=
      mem_innerEvents.2 ⟨k, lt, Or.inr mem⟩
    exact List.mem_cons_of_mem _ (List.mem_cons_of_mem _ (List.mem_append_left _ there))
  · rw [membersSettled_region (ne_of_inside inside), away, List.append_nil]
    exact membersSettled_innerEvents within lt inside

/-- A frame that is done after a region is done, if it is in none of the iterations. -/
theorem FrameDone.of_rest (done : FrameDone g events q) (apart : place ≠ q)
    (outside : ∀ k, ¬ (r.iterator, k) :: place <:+ q) :
    FrameDone g (⟨place, .skipped (f.skippedNext (Plane.ofGraph g))⟩ :: ⟨place, .opened r true⟩ ::
      (g.innerEvents place f₁ r parts count ++ ⟨place, .closed r⟩ :: events)) q := by
  refine done.mono (fun e mem => by simp [mem]) ?_
  rw [membersSettled_region apart, membersSettled_innerEvents_of_outside within outside,
    List.nil_append]

end

/-! ## Runs -/

variable {h : Host ω} {request : RunRequest} {g : Graph}

theorem Begun.unsettled_perm (wf : g.WellFormed) {place : Place} {f f₁ : Frame} {s s₁ : Ongoing ω}
    (begun : Begun request g place f s f₁ s₁) :
    f.unsettled.Perm (f.skippedNext (Plane.ofGraph g) ++ f₁.unsettled) :=
  begun.sound.unsettled_perm (begun.sound₁ wf) begun.follows begun.settled_eq

theorem Waved.settles_dispatched {f₁ f₂ : Frame} {s₁ s₂ : Ongoing ω} {ids : List String}
    {ran : List (Task × Ended)} (waved : Waved g f₁ s₁ ids ran f₂ s₂) (place : Place) :
    Event.settles ⟨place, .dispatched (f₁.tasks (Plane.ofGraph g) ids)⟩ = ids := waved.tasks

theorem unsettled_childFrame (f : Frame) (r : PendingRegion) (k : Nat) :
    (g.childFrame f r k).unsettled = (g.childFrame f r k).members :=
  List.filter_eq_self.2 fun _ _ => rfl

/-- A frame begins inside the frames around it. -/
theorem FrameRun.inside_of_entered (wf : g.WellFormed) (acyclic : g.Acyclic)
    (alone : h.LeavesRunsAlone) {place : Place} {f f' : Frame} {s s' : Ongoing ω}
    {events : List Event} (frame_run : FrameRun h request g place f s events f' s') {q : Place}
    {child : Frame} (mem : ⟨q, .entered child⟩ ∈ events) :
    ∃ I k, (I, k) :: place <:+ q ∧ f.Unfinished I := by
  rcases frame_run.touches wf acyclic alone _ mem with ⟨-, other, -⟩ | ⟨I, k, inside, open_, -⟩
  · exact absurd rfl (other child)
  · exact ⟨I, k, inside, open_⟩

/-- In a run that goes on a frame settles what is left to settle, each member once, and so does each
frame inside it. -/
theorem FrameRun.settles_once (wf : g.WellFormed) (acyclic : g.Acyclic) (alone : h.LeavesRunsAlone)
    {place : Place} {f f' : Frame} {s s' : Ongoing ω} {events : List Event}
    (frame_run : FrameRun h request g place f s events f' s') (goes_on : s'.stopped = false) :
    (membersSettled place events).Perm f.unsettled ∧
      ∀ q child, ⟨q, .entered child⟩ ∈ events →
        child.members = g.membersAt q ∧ FrameDone g events q := by
  induction frame_run with
  | stopped held stopped => exact Bool.noConfusion (goes_on.symm.trans stopped)
  | @finished place f f₁ s s₁ begun done =>
      refine ⟨?_, fun q child mem => absurd mem (by simp)⟩
      have perm := begun.unsettled_perm wf
      have none_left : f₁.unsettled = [] := by
        refine List.eq_nil_iff_forall_not_mem.2 fun id mem => done id ?_
        obtain ⟨member, fresh⟩ := Frame.mem_unsettled.1 mem
        exact Frame.unfinished_iff.2 ⟨member, Or.inl fresh⟩
      rw [none_left] at perm
      have tail : membersSettled place [⟨place, .finished f₁⟩] = [] := by
        simp [membersSettled, Event.settles]
      rw [membersSettled_cons, if_pos rfl, tail]
      exact perm.symm
  | @wave place f f₁ f₂ f' s s₁ s₂ s' ids ran events begun ready dispatched next rest ih =>
      have waved := begun.waved wf alone ready dispatched next
      have sound₂ := waved.sound wf (begun.sound₁ wf) (rest.goes_on_start alone goes_on)
      obtain ⟨settled, inner⟩ := ih goes_on
      refine ⟨?_, fun q child mem => ?_⟩
      · rw [membersSettled_cons, membersSettled_cons, if_pos rfl, if_pos rfl, membersSettled_append,
          membersSettled_settled, List.nil_append]
        have ran := (begun.sound₁ wf).unsettled_perm sound₂ waved.follows waved.settled_eq
        rw [waved.settles_dispatched]
        exact (((begun.unsettled_perm wf).trans (ran.append_left _)).trans
          ((settled.symm.append_left _).append_left _)).symm
      · have later : ⟨q, .entered child⟩ ∈ events := by simpa using mem
        obtain ⟨members, done⟩ := inner q child later
        obtain ⟨I, k, inside, -⟩ := rest.inside_of_entered wf acyclic alone later
        refine ⟨members, done.mono (fun e mem => by simp [mem]) ?_⟩
        exact membersSettled_wave (ne_of_inside inside)
  | @region place f f₁ f' s s₁ s' r count states parts frames outputs events begun pending ready
      iterates first each outputs_eq rest each_ih ih =>
      have sound := begun.sound₁ wf
      obtain ⟨all, going⟩ := iterates.complete alone (begun.held_first first) each
        (rest.goes_on_start alone goes_on)
      obtain ⟨settled, inner⟩ := ih goes_on
      have within := within_innerEvents wf acyclic alone each
      refine ⟨?_, fun q child mem => ?_⟩
      · have away := membersSettled_innerEvents_of_outside within fun k =>
          not_cons_suffix (r.iterator, k) place
        rw [membersSettled_cons, membersSettled_cons, membersSettled_append, membersSettled_cons,
          if_pos rfl, if_pos rfl, if_pos rfl, away]
        exact ((begun.unsettled_perm wf).trans (settled.symm.append_left _)).symm
      · have parts_or_rest : (∃ k < count, (⟨q, .entered child⟩ : Event) =
            ⟨(r.iterator, k) :: place, .entered (g.childFrame f₁ r k)⟩ ∨
              ⟨q, .entered child⟩ ∈ parts k) ∨ ⟨q, .entered child⟩ ∈ events := by
          rw [← mem_innerEvents]
          simpa using mem
        rcases parts_or_rest with ⟨k, lt, inside⟩ | later
        · have deeper : (r.iterator, k) :: place <:+ q := within k lt _ inside
          have away : membersSettled q events = [] :=
            membersSettled_of_forall_ne fun e mem same => by
              rw [← same] at deeper
              have touches := rest.touches wf acyclic alone e mem
              exact not_unfinished_settleRegion sound pending (touches.unfinished deeper)
          have ended := (each k lt).exists_finished wf (going k lt)
          obtain ⟨members, done⟩ : child.members = g.membersAt q ∧ FrameDone g (parts k) q := by
            rcases inside with same | inside
            · cases same
              have members : (g.childFrame f₁ r k).members =
                  g.membersAt ((r.iterator, k) :: place) :=
                (Frame.Sound.iterationFrame wf acyclic _ _ _ _).shape.members
              refine ⟨members, ?_, frames k, ended.1, ended.2.1.settled_perm ended.2.2⟩
              rw [← members, ← unsettled_childFrame]
              exact (each_ih k lt (going k lt)).1
            · exact (each_ih k lt (going k lt)).2 q child inside
          exact ⟨members, done.of_iteration within lt deeper away⟩
        · obtain ⟨members, done⟩ := inner q child later
          obtain ⟨I, k, inside, unfinished⟩ := rest.inside_of_entered wf acyclic alone later
          refine ⟨members, done.of_rest within (ne_of_inside inside) fun j back => ?_⟩
          cases eq_of_suffix_of_length_eq back inside rfl
          exact not_unfinished_settleRegion sound pending unfinished

/-- In a run that goes on each frame that is entered, the first one included, is done at the end. -/
theorem FrameRun.frameDone (wf : g.WellFormed) (acyclic : g.Acyclic) (alone : h.LeavesRunsAlone)
    {f : Frame} {s s' : Ongoing ω} {events : List Event}
    (frame_run : FrameRun h request g [] g.topFrame s events f s') (goes_on : s'.stopped = false)
    {place : Place} {child : Frame}
    (mem : ⟨place, .entered child⟩ ∈ ⟨[], .entered g.topFrame⟩ :: events) :
    child.members = g.membersAt place ∧
      FrameDone g (⟨[], .entered g.topFrame⟩ :: events) place := by
  obtain ⟨settled, inner⟩ := frame_run.settles_once wf acyclic alone goes_on
  have top_unsettled : g.topFrame.unsettled = g.topFrame.members :=
    List.filter_eq_self.2 fun _ _ => rfl
  have same (q : Place) : membersSettled q (⟨[], .entered g.topFrame⟩ :: events) =
      membersSettled q events := by
    rw [membersSettled_cons]
    simp [Event.settles]
  rcases List.mem_cons.1 mem with top | mem
  · cases top
    have ended := frame_run.exists_finished wf goes_on
    refine ⟨rfl, ⟨?_, f, List.mem_cons_of_mem _ ended.1, ended.2.1.settled_perm ended.2.2⟩⟩
    rw [top_unsettled] at settled
    rw [same]
    exact settled
  · obtain ⟨members, done⟩ := inner place child mem
    exact ⟨members, done.mono (List.subset_cons_self _ _) (same place)⟩

end Flowline
