import Flowline.Proofs.Run.History

/-!
# Runs that are told to halt

An execution can ask the run to halt.  Whoever asks, in whatever frame, the request is counted in
when the wave is settled, and from then on the run only winds up: the rest of the wave is settled,
and the regions around the frame are closed, but nothing is skipped, dispatched, opened or entered
any more (`FrameRun.windsUp`).  The node need not have failed for good; whether the run would go
on behind it does not matter.
-/

namespace Flowline

variable {ω : Type}

/-- From an execution in the frame at a place on, a run only winds up: it settles the rest of the
wave, and closes regions. -/
structure WindsUp (past : List Event) (place : Place) (x : Task × Ended) (later : List Event) :
    Prop where
  /-- The wave was dispatched last, and nothing but its executions has been settled since. -/
  wave : ∃ (earlier : List Event) (tasks : List Task) (before after : List (Task × Ended))
      (regions : List (Place × PendingRegion)),
    past = earlier ++ ⟨place, .dispatched tasks⟩ ::
      before.map (fun r => ⟨place, .settled r.1 r.2⟩) ∧
    later = after.map (fun r => ⟨place, .settled r.1 r.2⟩) ++
      regions.map (fun c => ⟨c.1, .closed c.2⟩) ∧
    ((before ++ x :: after).map (·.1)).Sublist tasks

namespace WindsUp

variable {past later : List Event} {place : Place} {x : Task × Ended}

theorem behind (winds : WindsUp past place x later) (front : List Event) :
    WindsUp (front ++ past) place x later := by
  obtain ⟨earlier, tasks, before, after, regions, rfl, later_eq, sub⟩ := winds.wave
  exact ⟨front ++ earlier, tasks, before, after, regions, by simp, later_eq, sub⟩

/-- A region around the frame is closed in the end. -/
theorem close (winds : WindsUp past place x later) (around : Place) (r : PendingRegion) :
    WindsUp past place x (later ++ [⟨around, .closed r⟩]) := by
  obtain ⟨earlier, tasks, before, after, regions, past_eq, rfl, sub⟩ := winds.wave
  exact ⟨earlier, tasks, before, after, regions ++ [(around, r)], past_eq, by simp, sub⟩

/-- Nothing is dispatched while a run winds up. -/
theorem not_dispatched (winds : WindsUp past place x later) {e : Event} (mem : e ∈ later) :
    (∃ t ended, e.what = .settled t ended) ∨ ∃ r, e.what = .closed r := by
  obtain ⟨earlier, tasks, before, after, regions, -, rfl, -⟩ := winds.wave
  rcases List.mem_append.1 mem with settled | closed
  · obtain ⟨r, -, rfl⟩ := List.mem_map.1 settled
    exact .inl ⟨r.1, r.2, rfl⟩
  · obtain ⟨c, -, rfl⟩ := List.mem_map.1 closed
    exact .inr ⟨c.2, rfl⟩

end WindsUp

/-- An entry of a list that is put together stands in the first part or in the second. -/
theorem append_split {α : Type} {first second past later : List α} {e : α}
    (split : first ++ second = past ++ e :: later) :
    (∃ rest, first = past ++ e :: rest ∧ later = rest ++ second) ∨
      ∃ front, past = first ++ front ∧ second = front ++ e :: later := by
  rcases List.append_eq_append_iff.1 split with ⟨front, rfl, second_eq⟩ | ⟨rest, rfl, later_eq⟩
  · exact .inr ⟨front, rfl, second_eq⟩
  · cases rest with
    | nil => exact .inr ⟨[], by simp, later_eq.symm⟩
    | cons first rest =>
        obtain ⟨rfl, rfl⟩ := List.cons.inj later_eq
        exact .inl ⟨rest, rfl, rfl⟩

/-- What is not the first entry of a list is one of the others. -/
theorem cons_split {α : Type} {first e : α} {rest past later : List α}
    (split : first :: rest = past ++ e :: later) (other : first ≠ e) :
    ∃ front, past = first :: front ∧ rest = front ++ e :: later := by
  cases past with
  | nil => exact absurd (List.cons.inj split).1 other
  | cons head front =>
      obtain ⟨rfl, rest_eq⟩ := List.cons.inj split
      exact ⟨front, rfl, rest_eq⟩

/-- What is settled together at a place is settled in one order. -/
theorem settled_split {place around : Place} {ran : List (Task × Ended)} {t : Task} {ended : Ended}
    {past later : List Event} (split : (ran.map fun r => (⟨place, .settled r.1 r.2⟩ : Event)) =
      past ++ ⟨around, .settled t ended⟩ :: later) :
    place = around ∧ ∃ before after, ran = before ++ (t, ended) :: after ∧
      past = (before.map fun r => ⟨place, .settled r.1 r.2⟩) ∧
      later = after.map fun r => ⟨place, .settled r.1 r.2⟩ := by
  obtain ⟨before, others, rfl, rfl, from_here⟩ := List.map_eq_append_iff.1 split
  obtain ⟨x, after, rfl, same, rfl⟩ := List.map_eq_cons_iff.1 from_here
  obtain ⟨rfl, what⟩ := Event.mk.inj same
  obtain ⟨rfl, rfl⟩ := Happening.settled.inj what
  exact ⟨rfl, before, after, rfl, rfl, rfl⟩

section

variable {h : Host ω} {request : RunRequest} {g : Graph} {place : Place} {f f' : Frame}
  {s s' : Ongoing ω} {events : List Event}

/-- In a run that was stopped nothing happens. -/
theorem FrameRun.eq_nil_of_stopped (frame_run : FrameRun h request g place f s events f' s')
    (stopped : s.stopped = true) : events = [] ∧ s' = s := by
  cases frame_run with
  | stopped => exact ⟨rfl, rfl⟩
  | finished begun => exact absurd (begun.goes_on.symm.trans stopped) Bool.false_ne_true
  | wave begun => exact absurd (begun.goes_on.symm.trans stopped) Bool.false_ne_true
  | region begun => exact absurd (begun.goes_on.symm.trans stopped) Bool.false_ne_true

theorem Progress.halted_recordRan {q : Progress} {ran : List (Task × Ended)} :
    (q.recordRan ran).halted = true ↔
      q.halted = true ∨ ∃ r ∈ ran, r.2.execution.halt = true := by
  induction ran generalizing q with
  | nil => simp [recordRan]
  | cons r rest ih =>
      have step : q.recordRan (r :: rest) = (q.record r.1.node r.2.execution).recordRan rest := rfl
      rw [step, ih]
      simp [record, or_assoc]

/-- A run that was told to halt has been stopped. -/
theorem Ongoing.stopped_of_halted (halted : s.progress.halted = true) : s.stopped = true :=
  Bool.or_eq_true_iff.2 (Or.inr halted)

/-- An execution in the iterations of a region is settled in one of them, and what follows there
belongs to the rest of that iteration or to later ones. -/
theorem innerEvents_split {r : PendingRegion} {parts : Nat → List Event} {count : Nat}
    {past later : List Event} {around : Place} {t : Task} {ended : Ended}
    (split : g.innerEvents place f r parts count = past ++ ⟨around, .settled t ended⟩ :: later) :
    ∃ k < count, ∃ front before rest more,
      parts k = before ++ ⟨around, .settled t ended⟩ :: rest ∧ past = front ++ before ∧
        later = rest ++ more ∧ ∀ e ∈ more, ∃ j, k < j ∧ j < count ∧
          (e = ⟨(r.iterator, j) :: place, .entered (g.childFrame f r j)⟩ ∨ e ∈ parts j) := by
  induction count generalizing later with
  | zero => simp [Graph.innerEvents] at split
  | succ count ih =>
      rw [innerEvents_succ] at split
      rcases append_split split with ⟨rest, first, rfl⟩ | ⟨front, rfl, second⟩
      · obtain ⟨k, lt, front, before, rest_k, more, part, past_eq, rfl, others⟩ := ih first
        refine ⟨k, Nat.lt_succ_of_lt lt, front, before, rest_k, _, part, past_eq,
          List.append_assoc .., fun e mem => ?_⟩
        rcases List.mem_append.1 mem with old | last
        · obtain ⟨j, after, j_lt, where_⟩ := others e old
          exact ⟨j, after, Nat.lt_succ_of_lt j_lt, where_⟩
        · exact ⟨count, lt, Nat.lt_succ_self count, List.mem_cons.1 last⟩
      · obtain ⟨before, rfl, part⟩ := cons_split second (by simp)
        exact ⟨count, Nat.lt_succ_self count, _, before, later, [], part,
          List.append_cons _ _ _, (List.append_nil _).symm, fun e mem => absurd mem (by simp)⟩

/-- **A run that is told to halt winds up.**  The request is counted in, so that the run has been
stopped when the frame is left. -/
theorem FrameRun.windsUp (wf : g.WellFormed) (alone : h.LeavesRunsAlone)
    (frame_run : FrameRun h request g place f s events f' s') {past later : List Event}
    {around : Place} {t : Task} {ended : Ended} (halts : ended.execution.halt = true)
    (split : events = past ++ ⟨around, .settled t ended⟩ :: later) :
    WindsUp past around (t, ended) later ∧ s'.progress.halted = true := by
  induction frame_run generalizing past later with
  | stopped held stopped => simp at split
  | finished begun done =>
      obtain ⟨past₁, rfl, split₁⟩ := cons_split split (by simp)
      obtain ⟨past₂, rfl, split₂⟩ := cons_split split₁ (by simp)
      simp at split₂
  | @wave place f f₁ f₂ f' s s₁ s₂ s' ids ran events begun ready dispatched next rest ih =>
      have waved := begun.waved wf alone ready dispatched next
      obtain ⟨past₁, rfl, split₁⟩ := cons_split split (by simp)
      obtain ⟨past₂, rfl, split₂⟩ := cons_split split₁ (by simp)
      rcases append_split split₂ with ⟨after, settled, rfl⟩ | ⟨front, rfl, later_eq⟩
      · -- the wave has the execution
        obtain ⟨rfl, before, after, rfl, rfl, rfl⟩ := settled_split settled
        have halted : s₂.progress.halted = true := by
          rw [waved.progress_eq, Progress.halted_recordRan]
          exact Or.inr ⟨(t, ended), List.mem_append_right _ List.mem_cons_self, halts⟩
        obtain ⟨rfl, rfl⟩ := rest.eq_nil_of_stopped (Ongoing.stopped_of_halted halted)
        exact ⟨⟨[_], _, before, after, [], rfl, rfl, waved.began⟩, halted⟩
      · obtain ⟨winds, halted⟩ := ih later_eq
        refine ⟨?_, halted⟩
        have behind := winds.behind (⟨place, .skipped (f.skippedNext (Plane.ofGraph g))⟩ ::
          ⟨place, .dispatched (f₁.tasks (Plane.ofGraph g) ids)⟩ ::
            ran.map fun r => ⟨place, .settled r.1 r.2⟩)
        exact behind
  | @region place f f₁ f' s s₁ s' r count states parts frames outputs events begun pending ready
      iterates first each outputs_eq rest each_ih ih =>
      obtain ⟨past₁, rfl, split₁⟩ := cons_split split (by simp)
      obtain ⟨past₂, rfl, split₂⟩ := cons_split split₁ (by simp)
      rcases append_split split₂ with ⟨inside, inner, rfl⟩ | ⟨front, rfl, later_eq⟩
      · -- an iteration has the execution, and it is the last one
        obtain ⟨k, lt, front, before, rest_k, more, part, rfl, rfl, others⟩ :=
          innerEvents_split inner
        obtain ⟨winds, halted⟩ := each_ih k lt part
        have is_last : k + 1 = count := by
          by_contra not_last
          have goes_on := iterates.goes_on (k + 1) (by omega)
          exact Bool.noConfusion (goes_on.symm.trans (Ongoing.stopped_of_halted halted))
        have no_more : more = [] := List.eq_nil_iff_forall_not_mem.2 fun e mem => by
          obtain ⟨j, after, j_lt, -⟩ := others e mem
          omega
        rw [no_more, List.append_nil]
        rw [is_last] at halted
        have kept := (advance_reportRegion alone (states count) r.iterator
          (aggregate r.data outputs)).halted halted
        obtain ⟨rfl, rfl⟩ := rest.eq_nil_of_stopped (Ongoing.stopped_of_halted kept)
        exact ⟨(winds.close place r).behind (⟨place, .skipped (f.skippedNext (Plane.ofGraph g))⟩ ::
          ⟨place, .opened r true⟩ :: front), kept⟩
      · obtain ⟨past₃, rfl, split₃⟩ := cons_split later_eq (by simp)
        obtain ⟨winds, halted⟩ := ih split₃
        refine ⟨?_, halted⟩
        have behind := winds.behind (⟨place, .skipped (f.skippedNext (Plane.ofGraph g))⟩ ::
          ⟨place, .opened r true⟩ :: (g.innerEvents place f₁ r parts count ++
            [⟨place, .closed r⟩]))
        simpa using behind

end

end Flowline
