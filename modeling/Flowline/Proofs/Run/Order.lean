import Flowline.Proofs.Run.Locality

/-!
# The order of the log

Executions are settled in an order that the edges of the graph allow: one of a predecessor stands
behind one of its successor only if it belongs to a later iteration.  Iterations follow one another.

* `InOrder`: what the order of two executions means.
* `FrameRun.pairwise_inOrder`: any two executions of a run are in order.
-/

namespace Flowline

variable {ω : Type}

/-- The places are in different iterations of one region, the first one in the earlier. -/
def Earlier (first second : Place) : Prop :=
  ∃ iterator outer k l, k < l ∧ (iterator, k) :: outer <:+ first ∧ (iterator, l) :: outer <:+ second

/-- The executions can stand in this order: the later one is of no predecessor of the earlier one,
unless it belongs to a later iteration, and no iteration comes before one with a lower number. -/
structure InOrder (g : Graph) (first second : Ran) : Prop where
  frame : first.place = second.place → ¬ g.Adj second.id first.id
  edge : g.Adj second.id first.id → Earlier first.place second.place
  iterations : ∀ iterator outer k l, (iterator, k) :: outer <:+ first.place →
    (iterator, l) :: outer <:+ second.place → k ≤ l

theorem not_earlier_self (place : Place) : ¬ Earlier place place := by
  rintro ⟨I, outer, k, l, lt, left, right⟩
  cases eq_of_suffix_of_length_eq left right rfl
  exact Nat.lt_irrefl _ lt

theorem InOrder.intro {g : Graph} {x y : Ran}
    (edge : g.Adj y.id x.id → Earlier x.place y.place)
    (iterations : ∀ I outer k l, (I, k) :: outer <:+ x.place → (I, l) :: outer <:+ y.place →
      k ≤ l) :
    InOrder g x y where
  frame same adj := not_earlier_self _ (same ▸ edge adj)
  edge := edge
  iterations := iterations

/-! ## Places -/

section

variable {I J : String} {k l i j : Nat} {place outer first second : Place}

/-- Around a place the numbers of iterations do not differ. -/
theorem eq_of_length_lt (left : place <:+ first) (right : place <:+ second)
    (in_first : (I, k) :: outer <:+ first) (in_second : (I, l) :: outer <:+ second)
    (short : outer.length < place.length) : k = l := by
  have before := List.suffix_of_suffix_length_le in_first left short
  have after := List.suffix_of_suffix_length_le in_second right short
  cases eq_of_suffix_of_length_eq before after rfl
  rfl

theorem le_of_iterations (lt : i < j) (left : (J, i) :: place <:+ first)
    (right : (J, j) :: place <:+ second) (in_first : (I, k) :: outer <:+ first)
    (in_second : (I, l) :: outer <:+ second) : k ≤ l := by
  have left_place := (List.suffix_cons _ _).trans left
  have right_place := (List.suffix_cons _ _).trans right
  rcases Nat.lt_trichotomy outer.length place.length with short | same | long
  · exact Nat.le_of_eq (eq_of_length_lt left_place right_place in_first in_second short)
  · have length_eq : ((I, k) :: outer).length = ((J, i) :: place).length := by simp [same]
    cases eq_of_suffix_of_length_eq in_first left length_eq
    cases eq_of_suffix_of_length_eq in_second right rfl
    exact Nat.le_of_lt lt
  · have outer_first := (List.suffix_cons _ _).trans in_first
    have outer_second := (List.suffix_cons _ _).trans in_second
    have before := List.suffix_of_suffix_length_le left outer_first (Nat.succ_le_of_lt long)
    have after := List.suffix_of_suffix_length_le right outer_second (Nat.succ_le_of_lt long)
    cases eq_of_suffix_of_length_eq before after rfl
    exact absurd lt (Nat.lt_irrefl _)

/-- What does not come back to a region agrees with it on all iterations around it. -/
theorem eq_of_not_suffix (left : (J, i) :: place <:+ first) (right : place <:+ second)
    (apart : ∀ j, ¬ (J, j) :: place <:+ second) (in_first : (I, k) :: outer <:+ first)
    (in_second : (I, l) :: outer <:+ second) : k = l := by
  have left_place := (List.suffix_cons _ _).trans left
  rcases Nat.lt_trichotomy outer.length place.length with short | same | long
  · exact eq_of_length_lt left_place right in_first in_second short
  · have length_eq : ((I, k) :: outer).length = ((J, i) :: place).length := by simp [same]
    cases eq_of_suffix_of_length_eq in_first left length_eq
    exact absurd in_second (apart l)
  · have outer_first := (List.suffix_cons _ _).trans in_first
    have before := List.suffix_of_suffix_length_le left outer_first (Nat.succ_le_of_lt long)
    exact absurd (before.trans ((List.suffix_cons _ _).trans in_second)) (apart i)

end

/-! ## Runs -/

variable {h : Host ω} {request : RunRequest} {g : Graph}

/-- The executions in the rest of a frame are things that the frame touches. -/
theorem FrameRun.touches_ran (wf : g.WellFormed) (acyclic : g.Acyclic) (alone : h.LeavesRunsAlone)
    {place : Place} {f f' : Frame} {s s' : Ongoing ω} {events : List Event}
    (frame_run : FrameRun h request g place f s events f' s') {x : Ran}
    (mem : x ∈ executions events) :
    f.Touches g place ⟨x.place, .settled x.task x.ended⟩ ∧ f.Ahead g x.id := by
  have touches := frame_run.touches wf acyclic alone _ (mem_executions.1 mem)
  exact ⟨touches, touches.ahead (List.mem_singleton.2 rfl)⟩

/-- Any two executions of a run are in order. -/
theorem FrameRun.pairwise_inOrder (wf : g.WellFormed) (acyclic : g.Acyclic)
    (alone : h.LeavesRunsAlone) {place : Place} {f f' : Frame} {s s' : Ongoing ω}
    {events : List Event} (frame_run : FrameRun h request g place f s events f' s') :
    (executions events).Pairwise (InOrder g) := by
  induction frame_run with
  | stopped held stopped => exact .nil
  | finished begun done => exact .nil
  | @wave place f f₁ f₂ f' s s₁ s₂ s' ids ran events begun ready dispatched next rest ih =>
      have waved := begun.waved wf alone ready dispatched next
      have sound := begun.sound₁ wf
      have began {r : Task × Ended} (mem : r ∈ ran) : r.1.node.id ∈ ids :=
        waved.ranIds_sublist.subset (List.mem_map_of_mem mem)
      -- What ran in the wave was ready, so none of its predecessors was still ahead.
      have behind {r : Task × Ended} (mem : r ∈ ran) {id : String} (ahead : f₁.Ahead g id) :
          ¬ g.Adj id r.1.node.id := by
        intro adj
        have is_ready := began mem
        rw [← ready] at is_ready
        exact sound.not_ahead_of_ready wf acyclic is_ready adj ahead
      rw [executions_wave, List.pairwise_append]
      refine ⟨?_, ih, ?_⟩
      · refine List.pairwise_of_forall_mem_list ?_
        intro x x_mem y y_mem
        obtain ⟨a, a_mem, rfl⟩ := List.mem_map.1 x_mem
        obtain ⟨b, b_mem, rfl⟩ := List.mem_map.1 y_mem
        refine .intro (fun adj => absurd adj (behind a_mem ?_)) fun I outer k l left right => ?_
        · exact Or.inl ⟨waved.members (began b_mem), waved.fresh _ (began b_mem)⟩
        · cases eq_of_suffix_of_length_eq left right rfl
          exact Nat.le_refl _
      · intro x x_mem y y_mem
        obtain ⟨a, a_mem, rfl⟩ := List.mem_map.1 x_mem
        obtain ⟨touches, ahead⟩ := rest.touches_ran wf acyclic alone y_mem
        refine .intro (fun adj => absurd adj (behind a_mem (waved.follows.ahead ahead)))
          fun I outer k l left right => ?_
        cases eq_of_suffix_of_length_eq (left.trans touches.suffix) right rfl
        exact Nat.le_refl _
  | @region place f f₁ f' s s₁ s' r count states parts frames outputs events begun pending ready
      iterates first each outputs_eq rest each_ih ih =>
      have sound := begun.sound₁ wf
      have inside {k : Nat} (in_range : k ∈ List.range count) {x : Ran}
          (mem : x ∈ executions (parts k)) :
          (r.iterator, k) :: place <:+ x.place ∧ g.Repeats r.iterator x.id := by
        have touches := (each k (List.mem_range.1 in_range)).touches_ran wf acyclic alone mem
        obtain ⟨suffix, about⟩ := touches_childFrame wf acyclic touches.1
        exact ⟨suffix, about _ (List.mem_singleton.2 rfl)⟩
      rw [executions_region, executions_innerEvents, List.pairwise_append]
      refine ⟨List.pairwise_flatMap.2 ⟨?_, ?_⟩, ih, ?_⟩
      · exact fun k in_range => each_ih k (List.mem_range.1 in_range)
      · refine List.pairwise_lt_range.imp_of_mem ?_
        intro i j i_mem j_mem lt x x_mem y y_mem
        obtain ⟨x_inside, -⟩ := inside i_mem x_mem
        obtain ⟨y_inside, -⟩ := inside j_mem y_mem
        exact .intro (fun _ => ⟨r.iterator, place, i, j, lt, x_inside, y_inside⟩)
          fun I outer k l => le_of_iterations lt x_inside y_inside
      · intro x x_mem y y_mem
        obtain ⟨i, i_mem, x_mem⟩ := List.mem_flatMap.1 x_mem
        obtain ⟨x_inside, repeats⟩ := inside i_mem x_mem
        obtain ⟨touches, ahead⟩ := rest.touches_ran wf acyclic alone y_mem
        refine .intro (fun adj => absurd ahead ?_) fun I outer k l left right => Nat.le_of_eq ?_
        · by_cases unit : g.InUnit r.iterator y.id
          · exact not_ahead_settleRegion wf acyclic sound pending unit
          · intro ahead
            exact sound.not_ahead_of_regionReady wf acyclic ready repeats adj unit
              (Frame.follows_settleRegion.ahead ahead)
        · refine eq_of_not_suffix x_inside touches.suffix (fun j back => ?_) left right
          exact not_unfinished_settleRegion sound pending (touches.unfinished back)

end Flowline
