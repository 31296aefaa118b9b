import Flowline.Proofs.Run.History

/-!
# What a frame touches

Whatever happens in the rest of a frame is about members that are not settled yet, or happens in the
region of an iterator that is not finished (`FrameRun.touches`).  So what is behind a frame stays
out of its history (`FrameRun.ahead_of_about`), and histories of different iterations keep to
different places.
-/

namespace Flowline

variable {ω : Type}

namespace Event

/-- The members that the event settles: those that are skipped or dispatched. -/
def settles (e : Event) : List String :=
  match e.what with
  | .skipped ids => ids
  | .dispatched tasks => tasks.map (·.node.id)
  | _ => []

/-- The members that the event is about. -/
def about (e : Event) : List String :=
  match e.what with
  | .skipped ids => ids
  | .dispatched tasks => tasks.map (·.node.id)
  | .settled t _ => [t.node.id]
  | _ => []

theorem settles_subset_about (e : Event) : e.settles ⊆ e.about := by
  obtain ⟨place, what⟩ := e
  cases what with
  | skipped ids => exact fun _ mem => mem
  | dispatched tasks => exact fun _ mem => mem
  | entered | settled | opened | closed | finished => exact List.nil_subset _

end Event

/-- The event is about members that are not settled, or happens in the region of an iterator that is
not finished. -/
def Frame.Touches (g : Graph) (place : Place) (f : Frame) (e : Event) : Prop :=
  (e.place = place ∧ (∀ child, e.what ≠ .entered child) ∧
    ∀ id ∈ e.about, id ∈ f.members ∧ id ∉ f.settled) ∨
  ∃ I k, (I, k) :: place <:+ e.place ∧ f.Unfinished I ∧ ∀ id ∈ e.about, g.Repeats I id

section

variable {g : Graph} {place : Place} {f f' : Frame} {e : Event} {id : String}

theorem Frame.Follows.touches (follows : Follows f f') (later : f'.Touches g place e) :
    f.Touches g place e := by
  rcases later with ⟨here, what, about⟩ | ⟨I, k, inside, unfinished, about⟩
  · refine Or.inl ⟨here, what, fun id mem => ?_⟩
    obtain ⟨member, fresh⟩ := about id mem
    exact ⟨follows.members ▸ member, fun settled => fresh (follows.settled settled)⟩
  · exact Or.inr ⟨I, k, inside, follows.unfinished unfinished, about⟩

theorem Frame.Touches.ahead (touches : f.Touches g place e) (mem : id ∈ e.about) :
    f.Ahead g id := by
  rcases touches with ⟨-, -, about⟩ | ⟨I, k, -, unfinished, about⟩
  · exact Or.inl (about id mem)
  · exact Or.inr ⟨I, unfinished, about id mem⟩

/-- What the frame of an iteration touches is in the region of the iterator. -/
theorem touches_childFrame (wf : g.WellFormed) (acyclic : g.Acyclic) {r : PendingRegion} {k : Nat}
    (touches : (g.childFrame f r k).Touches g ((r.iterator, k) :: place) e) :
    (r.iterator, k) :: place <:+ e.place ∧ ∀ id ∈ e.about, g.Repeats r.iterator id := by
  have sound : (g.childFrame f r k).Sound g ((r.iterator, k) :: place) :=
    .iterationFrame wf acyclic _ _ _ _
  have repeats {id : String} (member : id ∈ (g.childFrame f r k).members) :
      g.Repeats r.iterator id :=
    (Plane.mem_regionOf wf acyclic).1 (sound.shape.mem_candidates member)
  rcases touches with ⟨here, -, about⟩ | ⟨J, j, inside, unfinished, about⟩
  · exact ⟨here ▸ List.suffix_refl _, fun id mem => repeats (about id mem).1⟩
  · exact ⟨(List.suffix_cons _ _).trans inside,
      fun id mem => (repeats unfinished.1).trans (about id mem)⟩

theorem eq_of_suffix_of_length_eq {α : Type} {a b c : List α} (left : a <:+ c) (right : b <:+ c)
    (same : a.length = b.length) : a = b :=
  (List.suffix_of_suffix_length_le left right (Nat.le_of_eq same)).eq_of_length same

theorem not_cons_suffix {α : Type} (a : α) (rest : List α) : ¬ a :: rest <:+ rest := fun suffix =>
  Nat.not_succ_le_self _ suffix.length_le

theorem Frame.Touches.suffix (touches : f.Touches g place e) : place <:+ e.place := by
  rcases touches with ⟨here, -, -⟩ | ⟨J, j, deeper, -, -⟩
  · exact here ▸ List.suffix_refl _
  · exact (List.suffix_cons _ _).trans deeper

/-- What a frame touches in an iteration is in the region of an unfinished iterator. -/
theorem Frame.Touches.unfinished (touches : f.Touches g place e) {I : String} {k : Nat}
    (inside : (I, k) :: place <:+ e.place) : f.Unfinished I := by
  rcases touches with ⟨here, -, -⟩ | ⟨J, j, deeper, unfinished, -⟩
  · rw [here] at inside
    exact absurd inside (not_cons_suffix _ _)
  · have same := eq_of_suffix_of_length_eq inside deeper rfl
    cases same
    exact unfinished

/-- A region that has run is finished. -/
theorem not_unfinished_settleRegion {r : PendingRegion} {outputs : List (Entries Json)}
    (sound : f.Sound g place) (pending : r ∈ f.pending) :
    ¬ ((f.takeRegion r.iterator).settleRegion r outputs).Unfinished r.iterator := by
  rw [Frame.unfinished_iff]
  rintro ⟨-, fresh | ⟨r', waits, same⟩⟩
  · exact fresh (sound.pending_settled r pending)
  · exact (Frame.mem_pending_takeRegion.1 waits).2 same

/-- When a region has run, neither its iterator nor what is in it may still run. -/
theorem not_ahead_settleRegion (wf : g.WellFormed) (acyclic : g.Acyclic) {r : PendingRegion}
    {outputs : List (Entries Json)} (sound : f.Sound g place) (pending : r ∈ f.pending)
    (unit : g.InUnit r.iterator id) :
    ¬ ((f.takeRegion r.iterator).settleRegion r outputs).Ahead g id := by
  have settled := sound.pending_settled r pending
  have member := sound.settled_sub settled
  have candidate := sound.shape.mem_candidates member
  rintro (⟨id_member, fresh⟩ | ⟨O, unfinished, owns⟩)
  · rcases unit with rfl | repeats
    · exact fresh settled
    · exact sound.shape.not_repeats wf acyclic id_member candidate repeats
  · have O_member : O ∈ f.members := unfinished.1
    rcases unit with rfl | repeats
    · exact sound.shape.not_repeats wf acyclic member (sound.shape.mem_candidates O_member) owns
    · have same : O = r.iterator := by
        rw [sound.shape.members] at O_member member
        exact Plane.owner_unique wf acyclic O_member member owns repeats
      subst same
      exact not_unfinished_settleRegion sound pending unfinished

end

variable {h : Host ω} {request : RunRequest} {g : Graph}

/-- Everything that happens in the rest of a frame is something that the frame touches. -/
theorem FrameRun.touches (wf : g.WellFormed) (acyclic : g.Acyclic) (alone : h.LeavesRunsAlone)
    {place : Place} {f f' : Frame} {s s' : Ongoing ω} {events : List Event}
    (frame_run : FrameRun h request g place f s events f' s') :
    ∀ e ∈ events, f.Touches g place e := by
  induction frame_run with
  | stopped held stopped => simp
  | @finished place f f₁ s s₁ begun done =>
      intro e mem
      rcases List.mem_cons.1 mem with rfl | mem
      · exact Or.inl ⟨rfl, by simp, fun id about => begun.sound.mem_skippedNext wf about⟩
      · rw [List.mem_singleton.1 mem]
        exact Or.inl ⟨rfl, by simp, fun id about => by simp [Event.about] at about⟩
  | @wave place f f₁ f₂ f' s s₁ s₂ s' ids ran events begun ready dispatched next rest ih =>
      have waved := begun.waved wf alone ready dispatched next
      have open_ (id : String) (mem : id ∈ ids) : id ∈ f.members ∧ id ∉ f.settled :=
        ⟨begun.follows.members ▸ waved.members mem,
          fun settled => waved.fresh id mem (begun.follows.settled settled)⟩
      intro e mem
      rcases List.mem_cons.1 mem with rfl | mem
      · exact Or.inl ⟨rfl, by simp, fun id about => begun.sound.mem_skippedNext wf about⟩
      · rcases List.mem_cons.1 mem with rfl | mem
        · refine Or.inl ⟨rfl, by simp, fun id about => open_ id ?_⟩
          rw [← waved.tasks]
          exact about
        · rcases List.mem_append.1 mem with settled | later
          · obtain ⟨r, r_mem, rfl⟩ := List.mem_map.1 settled
            refine Or.inl ⟨rfl, by simp, fun id about => open_ id ?_⟩
            rw [List.mem_singleton.1 about]
            exact waved.ranIds_sublist.subset (List.mem_map_of_mem r_mem)
          · exact (begun.follows.trans waved.follows).touches (ih e later)
  | @region place f f₁ f' s s₁ s' r count states parts frames outputs events begun pending ready
      iterates first each outputs_eq rest each_ih ih =>
      have unfinished : f.Unfinished r.iterator := begun.follows.unfinished <|
        Frame.unfinished_iff.2 ⟨(begun.sound₁ wf).settled_sub
          ((begun.sound₁ wf).pending_settled r pending), Or.inr ⟨r, pending, rfl⟩⟩
      intro e mem
      rcases List.mem_cons.1 mem with rfl | mem
      · exact Or.inl ⟨rfl, by simp, fun id about => begun.sound.mem_skippedNext wf about⟩
      · rcases List.mem_cons.1 mem with rfl | mem
        · exact Or.inl ⟨rfl, by simp, fun id about => by simp [Event.about] at about⟩
        · rcases List.mem_append.1 mem with inside | mem
          · obtain ⟨k, lt, rfl | inside⟩ := mem_innerEvents.1 inside
            · exact Or.inr ⟨r.iterator, k, List.suffix_refl _, unfinished,
                fun id about => by simp [Event.about] at about⟩
            · obtain ⟨deeper, about⟩ := touches_childFrame wf acyclic (each_ih k lt e inside)
              exact Or.inr ⟨r.iterator, k, deeper, unfinished, about⟩
          · rcases List.mem_cons.1 mem with rfl | later
            · exact Or.inl ⟨rfl, by simp, fun id about => by simp [Event.about] at about⟩
            · exact (begun.follows.trans Frame.follows_settleRegion).touches (ih e later)

/-- What happens in the iterations of a region happens inside their places. -/
theorem within_innerEvents (wf : g.WellFormed) (acyclic : g.Acyclic) (alone : h.LeavesRunsAlone)
    {place : Place} {f : Frame} {r : PendingRegion} {count : Nat} {states : Nat → Ongoing ω}
    {parts : Nat → List Event} {frames : Nat → Frame}
    (each : ∀ k < count, FrameRun h request g ((r.iterator, k) :: place) (g.childFrame f r k)
      (states k) (parts k) (frames k) (states (k + 1))) :
    ∀ k < count, ∀ e, e = ⟨(r.iterator, k) :: place, .entered (g.childFrame f r k)⟩ ∨ e ∈ parts k →
      (r.iterator, k) :: place <:+ e.place := by
  rintro k lt e (rfl | mem)
  · exact List.suffix_refl _
  · exact (touches_childFrame wf acyclic ((each k lt).touches wf acyclic alone e mem)).1

end Flowline
