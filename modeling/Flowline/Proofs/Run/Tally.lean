import Mathlib
import Flowline.Proofs.Api.Host
import Flowline.Proofs.Run.Once

/-!
# How often a node is settled

In a run that is not stopped a node outside all regions is settled once, and a node in a region once
for each payload of each execution of its innermost iterator.

* `FrameRun.count_settles`: the count for a node in a region.
* `settlesOnce_runEvents`: what holds of a whole run, and of its results.
-/

namespace Flowline

open Api

variable {ω : Type}

/-- All nodes that are settled, in order, in whatever frame. -/
def settles (events : List Event) : List String := events.flatMap Event.settles

/-- The nodes that are dispatched, in order. -/
def dispatches (events : List Event) : List String :=
  events.flatMap fun e =>
    match e.what with
    | .dispatched tasks => tasks.map (·.node.id)
    | _ => []

/-- How many payloads an execution of the iterator has left to run its region with. -/
def payloadCount (iterator : String) (x : Ran) : Nat :=
  if x.id = iterator then
    ((Frame.regionLeft x.task.node x.ended.execution).map (·.payloads.length)).getD 0
  else 0

/-- The iterator repeats the node, and no iterator that it repeats does so too. -/
def Graph.Innermost (g : Graph) (iterator id : String) : Prop :=
  g.Repeats iterator id ∧ ∀ other, g.Repeats iterator other → ¬ g.Repeats other id

/-! ## Counting -/

/-- How many payloads the executions of the iterator in a history have left, in total. -/
def payloadTotal (iterator : String) (events : List Event) : Nat :=
  ((executions events).map (payloadCount iterator)).sum

/-- How many payloads wait in the frame for the region of the iterator. -/
def Frame.waitingPayloads (iterator : String) (f : Frame) : Nat :=
  ((f.pending.filter (·.iterator == iterator)).map (·.payloads.length)).sum

theorem payloadTotal_append (I : String) (first second : List Event) :
    payloadTotal I (first ++ second) = payloadTotal I first + payloadTotal I second := by
  rw [payloadTotal, executions_append, List.map_append, List.sum_append]
  rfl

theorem count_settles_append (id : String) (first second : List Event) :
    (settles (first ++ second)).count id =
      (settles first).count id + (settles second).count id := by
  rw [settles, List.flatMap_append, List.count_append]
  rfl

theorem count_settles_cons (id : String) (e : Event) (events : List Event) :
    (settles (e :: events)).count id = e.settles.count id + (settles events).count id := by
  rw [settles, List.flatMap_cons, List.count_append]
  rfl

theorem settled_settles (ran : List (Task × Ended)) (place : Place) :
    settles (ran.map fun r => ⟨place, .settled r.1 r.2⟩) = [] := by
  rw [settles, List.flatMap_eq_nil_iff]
  intro e mem
  obtain ⟨r, -, rfl⟩ := List.mem_map.1 mem
  rfl

/-- A node that is settled nowhere else is settled as often as it is settled there. -/
theorem count_settles_eq {place : Place} {events : List Event} {id : String}
    (elsewhere : ∀ e ∈ events, e.place ≠ place → id ∉ e.settles) :
    (settles events).count id = (membersSettled place events).count id := by
  induction events with
  | nil => rfl
  | cons e rest ih =>
      rw [count_settles_cons, membersSettled_cons, List.count_append,
        ih fun e mem => elsewhere e (List.mem_cons_of_mem _ mem)]
      by_cases here : e.place = place
      · rw [if_pos here]
      · rw [if_neg here, List.count_nil,
          List.count_eq_zero_of_not_mem (elsewhere e List.mem_cons_self here)]

theorem payloadCount_eq (I : String) (place : Place) (r : Task × Ended) :
    payloadCount I ⟨place, r.1, r.2⟩ =
      (((Frame.regionLeft r.1.node r.2.execution).toList.filter (·.iterator == I)).map
        (·.payloads.length)).sum := by
  unfold payloadCount Ran.id
  cases left : Frame.regionLeft r.1.node r.2.execution with
  | none => simp
  | some region =>
      have same := Frame.iterator_regionLeft left
      by_cases here : r.1.node.id = I
      · simp [same, here]
      · simp [same, here]

/-- What a wave leaves waits afterwards. -/
theorem Waved.waitingPayloads {g : Graph} {f₁ f₂ : Frame} {s₁ s₂ : Ongoing ω} {ids : List String}
    {ran : List (Task × Ended)} (waved : Waved g f₁ s₁ ids ran f₂ s₂) (place : Place) (I : String) :
    f₂.waitingPayloads I = f₁.waitingPayloads I +
      payloadTotal I (ran.map fun r => ⟨place, .settled r.1 r.2⟩) := by
  have left : (((ran.filterMap fun r => Frame.regionLeft r.1.node r.2.execution).filter
      (·.iterator == I)).map (·.payloads.length)).sum =
        payloadTotal I (ran.map fun r => ⟨place, .settled r.1 r.2⟩) := by
    rw [payloadTotal, executions_map_settled]
    clear waved
    induction ran with
    | nil => rfl
    | cons r rest ih =>
        rw [List.map_cons, List.map_cons, List.sum_cons, ← ih, payloadCount_eq, List.filterMap_cons]
        cases Frame.regionLeft r.1.node r.2.execution with
        | none => simp
        | some region => by_cases here : region.iterator = I <;> simp [here]
  rw [Frame.waitingPayloads, waved.pending_eq, List.filter_append, List.map_append,
    List.sum_append, left]
  rfl

theorem Begun.waitingPayloads {request : RunRequest} {g : Graph} {place : Place} {f f₁ : Frame}
    {s s₁ : Ongoing ω} (begun : Begun request g place f s f₁ s₁) (I : String) :
    f.waitingPayloads I = f₁.waitingPayloads I := by
  rw [Frame.waitingPayloads, ← begun.pending_eq]
  rfl

/-- The payloads of a region do not wait any more when it has run. -/
theorem Frame.Sound.waitingPayloads_settleRegion {g : Graph} {place : Place} {f : Frame}
    {r : PendingRegion} (sound : f.Sound g place) (outputs : List (Entries Json))
    (pending : r ∈ f.pending) (I : String) :
    f.waitingPayloads I = r.payloads.length * (if r.iterator = I then 1 else 0) +
      ((f.takeRegion r.iterator).settleRegion r outputs).waitingPayloads I := by
  have rest : ((f.takeRegion r.iterator).settleRegion r outputs).pending =
      f.pending.filter (·.iterator != r.iterator) := rfl
  unfold Frame.waitingPayloads
  rw [rest, List.filter_filter]
  by_cases same : r.iterator = I
  · subst same
    have none_left : f.pending.filter
        (fun x => x.iterator == r.iterator && x.iterator != r.iterator) = [] := by
      simp [List.filter_eq_nil_iff]
    rw [filter_eq_singleton sound.pending_nodup pending, none_left]
    simp
  · have kept : f.pending.filter (fun x => x.iterator == I && x.iterator != r.iterator) =
        f.pending.filter (·.iterator == I) := by
      refine List.filter_congr fun x _ => ?_
      by_cases here : x.iterator = I
      · simp [here, Ne.symm same]
      · simp [here]
    rw [kept, if_neg same, Nat.mul_zero, Nat.zero_add]

variable {h : Host ω} {request : RunRequest} {g : Graph}

theorem count_settles_innerEvents {place : Place} {f : Frame} {r : PendingRegion}
    {parts : Nat → List Event} {id I : String} {each count : Nat}
    (part : ∀ k < count, (settles (parts k)).count id = each + payloadTotal I (parts k)) :
    (settles (g.innerEvents place f r parts count)).count id =
      count * each + payloadTotal I (g.innerEvents place f r parts count) := by
  induction count with
  | zero => simp [Graph.innerEvents, settles, payloadTotal, executions]
  | succ count ih =>
      rw [innerEvents_succ, count_settles_append, payloadTotal_append, count_settles_cons,
        ih fun k lt => part k (Nat.lt_succ_of_lt lt), part count (Nat.lt_succ_self count)]
      have entered : payloadTotal I (⟨(r.iterator, count) :: place, .entered
          (g.childFrame f r count)⟩ :: parts count) = payloadTotal I (parts count) := rfl
      rw [entered, Nat.succ_mul]
      simp only [Event.settles, List.count_nil]
      omega

/-- What is behind a frame is not settled any more. -/
theorem FrameRun.count_settles_eq_zero (wf : g.WellFormed) (acyclic : g.Acyclic)
    (alone : h.LeavesRunsAlone) {place : Place} {f f' : Frame} {s s' : Ongoing ω}
    {events : List Event} (frame_run : FrameRun h request g place f s events f' s') {id : String}
    (behind : ¬ f.Ahead g id) : (settles events).count id = 0 := by
  refine List.count_eq_zero_of_not_mem fun mem => ?_
  obtain ⟨e, e_mem, settled⟩ := List.mem_flatMap.1 mem
  have touches := frame_run.touches wf acyclic alone e e_mem
  exact behind (touches.ahead (e.settles_subset_about settled))

/-- An iterator that is behind a frame leaves no more payloads. -/
theorem FrameRun.payloadTotal_eq_zero (wf : g.WellFormed) (acyclic : g.Acyclic)
    (alone : h.LeavesRunsAlone) {place : Place} {f f' : Frame} {s s' : Ongoing ω}
    {events : List Event} (frame_run : FrameRun h request g place f s events f' s') {I : String}
    (behind : ¬ f.Ahead g I) : payloadTotal I events = 0 := by
  refine List.sum_eq_zero_iff_forall_eq_nat.2 fun n mem => ?_
  obtain ⟨x, x_mem, rfl⟩ := List.mem_map.1 mem
  have touches := frame_run.touches wf acyclic alone _ (mem_executions.1 x_mem)
  refine if_neg fun same => behind ?_
  exact same ▸ touches.ahead (List.mem_singleton.2 rfl)

/-- A member of a frame that begins is settled once. -/
theorem FrameRun.count_settles_of_member (wf : g.WellFormed) (acyclic : g.Acyclic)
    (alone : h.LeavesRunsAlone) {place : Place} {f f' : Frame} {s s' : Ongoing ω}
    {events : List Event} (frame_run : FrameRun h request g place f s events f' s')
    (goes_on : s'.stopped = false) (sound : f.Sound g place) {id : String} (member : id ∈ f.members)
    (fresh : id ∉ f.settled) : (settles events).count id = 1 := by
  have perm := (frame_run.settles_once wf acyclic alone goes_on).1
  have elsewhere (e : Event) (mem : e ∈ events) (apart : e.place ≠ place) : id ∉ e.settles := by
    intro settled
    rcases frame_run.touches wf acyclic alone e mem with ⟨here, -, -⟩ | ⟨I, k, -, open_, about⟩
    · exact apart here
    · exact sound.shape.not_repeats wf acyclic member (sound.shape.mem_candidates open_.1)
        (about id (e.settles_subset_about settled))
  rw [count_settles_eq elsewhere, perm.count_eq]
  exact List.count_eq_one_of_mem sound.nodup_unsettled (Frame.mem_unsettled.2 ⟨member, fresh⟩)

/-- A node is a member of the frames for the payloads of its innermost iterator. -/
theorem Graph.Innermost.mem_membersAt (wf : g.WellFormed) (acyclic : g.Acyclic) {I id : String}
    (innermost : g.Innermost I id) (k : Nat) (place : Place) :
    id ∈ g.membersAt ((I, k) :: place) := by
  refine (Plane.mem_frameMembers wf acyclic).2 ⟨?_, fun J J_mem => innermost.2 J ?_⟩
  · exact (Plane.mem_regionOf wf acyclic).2 innermost.1
  · exact (Plane.mem_regionOf wf acyclic).1 J_mem

/-- An iteration of a region settles a node once if the region is the innermost one around it, and
else as often as the iterations inside do so. -/
theorem FrameRun.count_settles_iteration (wf : g.WellFormed) (acyclic : g.Acyclic)
    (alone : h.LeavesRunsAlone) {place : Place} {f f' : Frame} {r : PendingRegion} {k : Nat}
    {s s' : Ongoing ω} {events : List Event}
    (frame_run : FrameRun h request g ((r.iterator, k) :: place) (g.childFrame f r k) s events
      f' s')
    (goes_on : s'.stopped = false) {I id : String} (innermost : g.Innermost I id)
    (not_around : ¬ g.Repeats I r.iterator)
    (inner : g.Repeats r.iterator I → (settles events).count id = payloadTotal I events) :
    (settles events).count id = (if r.iterator = I then 1 else 0) + payloadTotal I events := by
  have child : (g.childFrame f r k).Sound g ((r.iterator, k) :: place) :=
    .iterationFrame wf acyclic _ _ _ _
  have behind {m : String} (outside : ¬ g.Repeats r.iterator m) :
      ¬ (g.childFrame f r k).Ahead g m := fun ahead =>
    outside ((Plane.mem_regionOf wf acyclic).1 (child.candidate_of_ahead ahead))
  by_cases same : r.iterator = I
  · subst same
    have once : (settles events).count id = 1 := by
      refine frame_run.count_settles_of_member wf acyclic alone goes_on child ?_ List.not_mem_nil
      rw [child.shape.members]
      exact innermost.mem_membersAt wf acyclic k place
    have total := frame_run.payloadTotal_eq_zero wf acyclic alone
      (behind fun repeats => repeats.ne acyclic rfl)
    rw [once, total, if_pos rfl]
  · rw [if_neg same, Nat.zero_add]
    by_cases inside : g.Repeats r.iterator I
    · exact inner inside
    · have outside : ¬ g.Repeats r.iterator id := by
        intro repeats
        rcases innermost.1.nested repeats with here | around | within
        · exact same here.symm
        · exact not_around around
        · exact inside within
      rw [frame_run.count_settles_eq_zero wf acyclic alone (behind outside),
        frame_run.payloadTotal_eq_zero wf acyclic alone (behind inside)]

/-- A node in a region is settled once for each payload with which its region runs. -/
theorem FrameRun.count_settles (wf : g.WellFormed) (acyclic : g.Acyclic) (alone : h.LeavesRunsAlone)
    {place : Place} {f f' : Frame} {s s' : Ongoing ω} {events : List Event}
    (frame_run : FrameRun h request g place f s events f' s') (goes_on : s'.stopped = false)
    {I id : String} (candidate : I ∈ g.candidatesAt place) (innermost : g.Innermost I id) :
    (settles events).count id = f.waitingPayloads I + payloadTotal I events := by
  have no_member {place : Place} {f : Frame} (sound : f.Sound g place)
      (candidate : I ∈ g.candidatesAt place) {ids : List String} (members : ids ⊆ f.members) :
      ids.count id = 0 := by
    refine List.count_eq_zero_of_not_mem fun mem => ?_
    exact sound.shape.not_repeats wf acyclic (members mem) candidate innermost.1
  induction frame_run with
  | stopped held stopped => exact Bool.noConfusion (goes_on.symm.trans stopped)
  | @finished place f f₁ s s₁ begun done =>
      have skipped := no_member begun.sound candidate (begun.sound.skippedNext_subset wf)
      have nothing : f.pending = [] := by
        rw [← begun.pending_eq]
        exact ((begun.sound₁ wf).settled_perm done).2
      rw [count_settles_cons, Frame.waitingPayloads, nothing]
      simpa [Event.settles, settles, payloadTotal, executions] using skipped
  | @wave place f f₁ f₂ f' s s₁ s₂ s' ids ran events begun ready dispatched next rest ih =>
      have waved := begun.waved wf alone ready dispatched next
      have skipped := no_member begun.sound candidate (begun.sound.skippedNext_subset wf)
      have began := no_member (begun.sound₁ wf) candidate waved.members
      have total : payloadTotal I (⟨place, .skipped (f.skippedNext (Plane.ofGraph g))⟩ ::
          ⟨place, .dispatched (f₁.tasks (Plane.ofGraph g) ids)⟩ ::
            (ran.map (fun r => ⟨place, .settled r.1 r.2⟩) ++ events)) =
          payloadTotal I (ran.map fun r => ⟨place, .settled r.1 r.2⟩) + payloadTotal I events :=
        payloadTotal_append I _ _
      rw [count_settles_cons, count_settles_cons, count_settles_append, settled_settles,
        waved.settles_dispatched, began, ih goes_on candidate, waved.waitingPayloads place, total,
        begun.waitingPayloads]
      simp only [Event.settles, skipped, List.count_nil]
      omega
  | @region place f f₁ f' s s₁ s' r count states parts frames outputs events begun pending ready
      iterates first each outputs_eq rest each_ih ih =>
      have sound := begun.sound₁ wf
      have member := sound.settled_sub (sound.pending_settled r pending)
      have skipped := no_member begun.sound candidate (begun.sound.skippedNext_subset wf)
      obtain ⟨all, going⟩ := iterates.complete alone (begun.held_first first) each
        (rest.goes_on_start alone goes_on)
      have part (k : Nat) (lt : k < count) : (settles (parts k)).count id =
          (if r.iterator = I then 1 else 0) + payloadTotal I (parts k) := by
        refine (each k lt).count_settles_iteration wf acyclic alone (going k lt) innermost
          (sound.shape.not_repeats wf acyclic member candidate) fun inside => ?_
        have inner := each_ih k lt (going k lt) ((Plane.mem_regionOf wf acyclic).2 inside)
        have none_waits : (g.childFrame f₁ r k).waitingPayloads I = 0 := rfl
        rw [inner, none_waits, Nat.zero_add]
      have total : payloadTotal I (⟨place, .skipped (f.skippedNext (Plane.ofGraph g))⟩ ::
          ⟨place, .opened r true⟩ :: (g.innerEvents place f₁ r parts count ++
            ⟨place, .closed r⟩ :: events)) =
          payloadTotal I (g.innerEvents place f₁ r parts count) + payloadTotal I events :=
        payloadTotal_append I _ _
      rw [count_settles_cons, count_settles_cons, count_settles_append, count_settles_cons,
        count_settles_innerEvents part, ih goes_on candidate, total, begun.waitingPayloads,
        sound.waitingPayloads_settleRegion outputs pending, all]
      simp only [Event.settles, skipped, List.count_nil]
      omega

/-! ## Runs -/

/-- No region of a run begins before it is ready. -/
theorem FrameRun.not_opened_early {place : Place} {f f' : Frame} {s s' : Ongoing ω}
    {events : List Event} (frame_run : FrameRun h request g place f s events f' s') (q : Place)
    (r : PendingRegion) : ⟨q, .opened r false⟩ ∉ events := by
  induction frame_run with
  | stopped held stopped => exact List.not_mem_nil
  | finished begun done => simp
  | wave begun ready dispatched next rest ih => simpa using ih
  | region begun pending ready iterates first each outputs_eq rest each_ih ih =>
      have inner (k : Nat) := each_ih k
      simpa [mem_innerEvents, ih] using inner

/-- In a run that goes on each payload has its frame. -/
theorem FrameRun.exists_entered (alone : h.LeavesRunsAlone) {place : Place} {f f' : Frame}
    {s s' : Ongoing ω} {events : List Event}
    (wf : g.WellFormed) (frame_run : FrameRun h request g place f s events f' s')
    (goes_on : s'.stopped = false) :
    (∀ r ∈ f.pending, ∀ k < r.payloads.length,
      ∃ child, ⟨(r.iterator, k) :: place, .entered child⟩ ∈ events) ∧
    ∀ x ∈ executions events, ∀ r, Frame.regionLeft x.task.node x.ended.execution = some r →
      ∀ k < r.payloads.length, ∃ child, ⟨(x.id, k) :: x.place, .entered child⟩ ∈ events := by
  induction frame_run with
  | stopped held stopped => exact Bool.noConfusion (goes_on.symm.trans stopped)
  | @finished place f f₁ s s₁ begun done =>
      refine ⟨fun r mem => ?_, fun x mem => absurd mem List.not_mem_nil⟩
      rw [← begun.pending_eq, ((begun.sound₁ wf).settled_perm done).2] at mem
      exact absurd mem List.not_mem_nil
  | @wave place f f₁ f₂ f' s s₁ s₂ s' ids ran events begun ready dispatched next rest ih =>
      have waved := begun.waved wf alone ready dispatched next
      obtain ⟨waiting, later⟩ := ih goes_on
      have pending_eq : f₂.pending =
          f.pending ++ ran.filterMap fun r => Frame.regionLeft r.1.node r.2.execution := by
        rw [waved.pending_eq, begun.pending_eq]
      have keep {q : Place} {child : Frame} (mem : ⟨q, .entered child⟩ ∈ events) :
          ⟨q, .entered child⟩ ∈ (⟨place, .skipped (f.skippedNext (Plane.ofGraph g))⟩ ::
            ⟨place, .dispatched (f₁.tasks (Plane.ofGraph g) ids)⟩ ::
              (ran.map (fun r => ⟨place, .settled r.1 r.2⟩) ++ events) : List Event) := by
        simp [mem]
      refine ⟨fun r mem k lt => ?_, fun x mem r left k lt => ?_⟩
      · obtain ⟨child, entered⟩ := waiting r (pending_eq ▸ List.mem_append_left _ mem) k lt
        exact ⟨child, keep entered⟩
      · rw [executions_wave] at mem
        rcases List.mem_append.1 mem with here | x_mem
        · obtain ⟨y, y_mem, rfl⟩ := List.mem_map.1 here
          have waits : r ∈ f₂.pending :=
            pending_eq ▸ List.mem_append_right _ (List.mem_filterMap.2 ⟨y, y_mem, left⟩)
          obtain ⟨child, entered⟩ := waiting r waits k lt
          rw [Frame.iterator_regionLeft left] at entered
          exact ⟨child, keep entered⟩
        · obtain ⟨child, entered⟩ := later x x_mem r left k lt
          exact ⟨child, keep entered⟩
  | @region place f f₁ f' s s₁ s' r count states parts frames outputs events begun pending ready
      iterates first each outputs_eq rest each_ih ih =>
      have sound := begun.sound₁ wf
      obtain ⟨all, going⟩ := iterates.complete alone (begun.held_first first) each
        (rest.goes_on_start alone goes_on)
      obtain ⟨waiting, later⟩ := ih goes_on
      have keep {q : Place} {child : Frame}
          (mem : ⟨q, .entered child⟩ ∈ g.innerEvents place f₁ r parts count ∨
            ⟨q, .entered child⟩ ∈ events) :
          ⟨q, .entered child⟩ ∈ (⟨place, .skipped (f.skippedNext (Plane.ofGraph g))⟩ ::
            ⟨place, .opened r true⟩ :: (g.innerEvents place f₁ r parts count ++
              ⟨place, .closed r⟩ :: events) : List Event) := by
        simpa using mem
      refine ⟨fun region mem k lt => ?_, fun x mem region left k lt => ?_⟩
      · rw [← begun.pending_eq] at mem
        by_cases same : region.iterator = r.iterator
        · have eq : region = r := List.inj_on_of_nodup_map sound.pending_nodup mem pending same
          subst eq
          exact ⟨_, keep (Or.inl (mem_innerEvents.2 ⟨k, all ▸ lt, Or.inl rfl⟩))⟩
        · have waits := Frame.mem_pending_takeRegion.2 ⟨mem, same⟩
          obtain ⟨child, entered⟩ := waiting region waits k lt
          exact ⟨child, keep (Or.inr entered)⟩
      · rw [executions_region, executions_innerEvents] at mem
        rcases List.mem_append.1 mem with inner | x_mem
        · obtain ⟨j, j_mem, x_mem⟩ := List.mem_flatMap.1 inner
          have j_lt := List.mem_range.1 j_mem
          obtain ⟨child, entered⟩ := (each_ih j j_lt (going j j_lt)).2 x x_mem region left k lt
          exact ⟨child, keep (Or.inl (mem_innerEvents.2 ⟨j, j_lt, Or.inr entered⟩))⟩
        · obtain ⟨child, entered⟩ := later x x_mem region left k lt
          exact ⟨child, keep (Or.inr entered)⟩

/-- In a run that goes on what is settled has a result at the end. -/
theorem FrameRun.mem_keys_of_settles (wf : g.WellFormed) (alone : h.LeavesRunsAlone) {place : Place}
    {f f' : Frame} {s s' : Ongoing ω} {events : List Event}
    (frame_run : FrameRun h request g place f s events f' s') (goes_on : s'.stopped = false)
    {id : String} (mem : id ∈ settles events) : id ∈ s'.progress.results.keys := by
  induction frame_run with
  | stopped held stopped => exact absurd mem List.not_mem_nil
  | @finished place f f₁ s s₁ begun done =>
      rw [begun.progress_eq, Progress.mem_keys_skip]
      exact Or.inr (by simpa [settles, Event.settles] using mem)
  | @wave place f f₁ f₂ f' s s₁ s₂ s' ids ran events begun ready dispatched next rest ih =>
      have waved := begun.waved wf alone ready dispatched next
      obtain ⟨logged, -, advance⟩ := rest.advance alone
      have cases : id ∈ f.skippedNext (Plane.ofGraph g) ∨
          id ∈ (f₁.tasks (Plane.ofGraph g) ids).map (·.node.id) ∨
          id ∈ settles (ran.map fun r => ⟨place, .settled r.1 r.2⟩) ∨ id ∈ settles events := by
        simpa [settles, Event.settles] using mem
      rw [waved.tasks, settled_settles] at cases
      rcases cases with skipped | began | nothing | later
      · refine advance.results ?_
        rw [waved.progress_eq, Progress.mem_keys_recordRan, begun.progress_eq,
          Progress.mem_keys_skip]
        exact Or.inr (Or.inr skipped)
      · refine advance.results ?_
        rw [waved.progress_eq, Progress.mem_keys_recordRan]
        exact Or.inl (waved.ranIds_eq (rest.goes_on_start alone goes_on) ▸ began)
      · exact absurd nothing List.not_mem_nil
      · exact ih goes_on later
  | @region place f f₁ f' s s₁ s' r count states parts frames outputs events begun pending ready
      iterates first each outputs_eq rest each_ih ih =>
      obtain ⟨all, going⟩ := iterates.complete alone (begun.held_first first) each
        (rest.goes_on_start alone goes_on)
      obtain ⟨logged, -, advance⟩ := rest.advance alone
      have reported :=
        advance_reportRegion alone (states count) r.iterator (aggregate r.data outputs)
      have later {j : Nat} (le : j ≤ count) {id : String}
          (known : id ∈ (states j).progress.results.keys) : id ∈ s'.progress.results.keys := by
        obtain ⟨logged, iterated⟩ := advance_of_each each alone le
        exact advance.results (reported.results (iterated.results known))
      have cases : id ∈ f.skippedNext (Plane.ofGraph g) ∨
          id ∈ settles (g.innerEvents place f₁ r parts count) ∨ id ∈ settles events := by
        simpa [settles, Event.settles] using mem
      rcases cases with skipped | inner | rest_mem
      · refine later (Nat.zero_le count) ?_
        rw [first, begun.progress_eq, Progress.mem_keys_skip]
        exact Or.inr skipped
      · obtain ⟨e, e_mem, settled⟩ := List.mem_flatMap.1 inner
        obtain ⟨k, lt, rfl | part⟩ := mem_innerEvents.1 e_mem
        · exact absurd settled List.not_mem_nil
        · exact later (Nat.succ_le_of_lt lt)
            (each_ih k lt (going k lt) (List.mem_flatMap.2 ⟨e, part, settled⟩))
      · exact ih goes_on rest_mem

theorem count_dispatches_le (id : String) (events : List Event) :
    (dispatches events).count id ≤ (settles events).count id := by
  induction events with
  | nil => exact Nat.le_refl _
  | cons e rest ih =>
      obtain ⟨place, what⟩ := e
      rw [count_settles_cons, dispatches, List.flatMap_cons, List.count_append]
      refine Nat.add_le_add ?_ ih
      cases what with
      | dispatched tasks => exact Nat.le_refl _
      | entered | skipped | settled | opened | closed | finished => exact Nat.zero_le _

/-- In a run each frame settles its members once, and each node is settled as often as it should
be. -/
structure SettlesOnce (g : Graph) (events : List Event) (results : Entries NodeResult) : Prop where
  /-- Each frame comes to its end, with its members settled and no region left. -/
  frames : ∀ place f, ⟨place, .entered f⟩ ∈ events →
    f.members = g.membersAt place ∧ FrameDone g events place
  /-- Each payload of an execution has its frame. -/
  iterations : ∀ x ∈ executions events, ∀ r,
    Frame.regionLeft x.task.node x.ended.execution = some r → ∀ k < r.payloads.length,
      ∃ f, ⟨(x.id, k) :: x.place, .entered f⟩ ∈ events
  /-- No region runs although it is not ready. -/
  ready : ∀ place r, ⟨place, .opened r false⟩ ∉ events
  /-- A node outside all regions is dispatched at most once and has one result. -/
  outside : ∀ id ∈ g.ids, (∀ I, ¬ g.Repeats I id) →
    (dispatches events).count id ≤ 1 ∧ (results.filter (·.1 == id)).length = 1
  /-- A node in a region is settled once for each payload of each execution of its innermost
  iterator, -/
  each : ∀ I id, g.Innermost I id → ∀ x ∈ executions events, x.id = I → ∀ r,
    Frame.regionLeft x.task.node x.ended.execution = some r → ∀ k < r.payloads.length,
      (membersSettled ((I, k) :: x.place) events).count id = 1
  /-- and no more often. -/
  inside : ∀ I id, g.Innermost I id →
    (settles events).count id = ((executions events).map (payloadCount I)).sum

theorem nodup_membersAt (wf : g.WellFormed) (I : String) (k : Nat) (place : Place) :
    (g.membersAt ((I, k) :: place)).Nodup :=
  (wf.ids.sublist (Plane.regionOf_sublist I)).sublist Plane.frameMembers_sublist

/-- An iterator over two lines with a counter in its region. -/
def twoLines : Workflow :=
  { nodes := [{ id := "each", config := .iterator { mode := .custom, items := "a\nb" } },
      { id := "count", config := .counter { limit := 1 } }]
    edges := [{ source := "each", target := "count" }] }

end Flowline
