import Flowline.Node.Feed
import Mathlib.Data.List.Basic
import Mathlib.Data.List.Induction

/-!
# Sorting by a comparison

`Feed.sortStable` inserts one element after the other from the back, by any comparison, whether it
is an order or not.  `Feed.Arranges` says what is asked of a sorted list: it has the elements of the
list, each once, no element stands before one that precedes it, and of two elements of which none
precedes the other the one that stood first still does.

* `Feed.sortStable_perm`: whatever the comparison, no element is lost or repeated.
* `Feed.eq_sortStable_of_arranges`: if some list is arranged as asked, it is the sorted one.
* `Feed.arranges_sortStable`: if the comparison ranks the elements, the sorted list is arranged so.
-/

namespace Flowline.Feed

variable {α β : Type} {precedes : α → α → Bool} {items : List α}

/-! ## Inserting -/

theorem insertBack_perm (precedes : α → α → Bool) (x : α) (sorted : List α) :
    (insertBack precedes x sorted).Perm (x :: sorted) := by
  induction sorted with
  | nil => exact .refl _
  | cons y rest ih =>
      rw [insertBack]
      split
      · exact (ih.cons y).trans (.swap x y rest)
      · exact .refl _

/-- An element is inserted behind those that it precedes, in the order from the back. -/
theorem insertBack_append {x : α} {after before : List α}
    (passed : ∀ y ∈ after, precedes x y = true) (stops : ∀ y ∈ before, precedes x y = false) :
    insertBack precedes x (after ++ before) = after ++ x :: before := by
  induction after with
  | nil =>
      cases before with
      | nil => rfl
      | cons y rest => simp [insertBack, stops y List.mem_cons_self]
  | cons y rest ih =>
      have behind := ih fun z mem => passed z (List.mem_cons_of_mem y mem)
      simp [insertBack, passed y List.mem_cons_self, behind]

/-- Inserting does not look at more than the comparison. -/
theorem insertBack_map (f : β → α) (x : β) (sorted : List β) :
    insertBack precedes (f x) (sorted.map f) =
      (insertBack (fun a b => precedes (f a) (f b)) x sorted).map f := by
  induction sorted with
  | nil => rfl
  | cons y rest ih =>
      rw [List.map_cons, insertBack, insertBack, ih]
      split
      · rfl
      · rfl

/-! ## Sorting -/

theorem sortStable_concat (precedes : α → α → Bool) (items : List α) (x : α) :
    (sortStable precedes (items ++ [x])).reverse =
      insertBack precedes x (sortStable precedes items).reverse := by
  simp [sortStable]

theorem sortStable_perm (precedes : α → α → Bool) (items : List α) :
    (sortStable precedes items).Perm items := by
  induction items using List.reverseRecOn with
  | nil => exact .refl _
  | append_singleton items x ih =>
      have inserted : (sortStable precedes (items ++ [x])).reverse.Perm
          (x :: (sortStable precedes items).reverse) := by
        rw [sortStable_concat]
        exact insertBack_perm precedes x _
      have others : (x :: (sortStable precedes items).reverse).Perm (x :: items) :=
        ((List.reverse_perm _).trans ih).cons x
      have last : (x :: items).Perm (items ++ [x]) := (List.perm_append_singleton x items).symm
      exact (List.reverse_perm _).symm.trans (inserted.trans (others.trans last))

theorem sortStable_map (f : β → α) (items : List β) :
    sortStable precedes (items.map f) =
      (sortStable (fun a b => precedes (f a) (f b)) items).map f := by
  induction items using List.reverseRecOn with
  | nil => rfl
  | append_singleton items x ih =>
      have inserted := sortStable_concat precedes (items.map f) (f x)
      rw [ih, ← List.map_reverse, insertBack_map, ← sortStable_concat, List.map_reverse] at inserted
      rw [List.map_append]
      exact List.reverse_injective inserted

/-! ## What is asked of a sorted list -/

/-- An element with its place may stand before another one: it is not preceded by it, and precedes
it or stood before it. -/
def Leads (precedes : α → α → Bool) (a b : α × Nat) : Prop :=
  precedes b.1 a.1 = false ∧ (precedes a.1 b.1 = true ∨ a.2 < b.2)

/-- A list has the elements of another one, each once, and each may stand before those that stand
behind it. -/
def Arranges (precedes : α → α → Bool) (items arranged : List α) : Prop :=
  ∃ places : List (α × Nat), places.Perm items.zipIdx ∧ places.Pairwise (Leads precedes) ∧
    places.map (·.1) = arranged

theorem Arranges.perm {arranged : List α} (arranges : Arranges precedes items arranged) :
    arranged.Perm items := by
  obtain ⟨places, perm, -, rfl⟩ := arranges
  rw [← List.zipIdx_map_fst 0 items]
  exact perm.map (·.1)

theorem Arranges.pairwise {arranged : List α} (arranges : Arranges precedes items arranged) :
    arranged.Pairwise fun a b => precedes b a = false := by
  obtain ⟨places, -, leads, rfl⟩ := arranges
  exact List.pairwise_map.2 (leads.imp And.left)

/-- If each element is preceded by another one, none can stand first. -/
theorem not_arranges_of_preceded {arranged : List α} (inhabited : items ≠ [])
    (preceded : ∀ a ∈ items, ∃ b ∈ items, b ≠ a ∧ precedes b a = true) :
    ¬ Arranges precedes items arranged := by
  intro arranges
  have perm := arranges.perm
  cases arranged with
  | nil => exact inhabited perm.symm.eq_nil
  | cons a rest =>
      obtain ⟨b, mem, ne, before⟩ := preceded a (perm.mem_iff.1 List.mem_cons_self)
      have behind : b ∈ rest := (List.mem_cons.1 (perm.mem_iff.2 mem)).resolve_left ne
      have not_before := (List.pairwise_cons.1 arranges.pairwise).1 b behind
      exact Bool.false_ne_true (not_before.symm.trans before)

/-- The comparison ranks some elements: no two of them precede each other, and what precedes an
element precedes also what that one does not follow. -/
structure Ranks (precedes : α → α → Bool) (items : List α) : Prop where
  asymm : ∀ a ∈ items, ∀ b ∈ items, precedes a b = true → precedes b a = false
  between : ∀ a ∈ items, ∀ b ∈ items, ∀ c ∈ items, precedes a c = true →
    precedes a b = true ∨ precedes b c = true

variable {placed places : List (α × Nat)}

/-- What is arranged as asked is the sorted list: each element is inserted just where it stands
among those that were inserted before it. -/
theorem sortStable_eq_of_leads (ascending : placed.Pairwise (·.2 < ·.2))
    (perm : places.Perm placed) (leads : places.Pairwise (Leads precedes)) :
    sortStable (fun a b => precedes a.1 b.1) placed = places := by
  induction placed using List.reverseRecOn generalizing places with
  | nil => exact perm.eq_nil.symm
  | append_singleton placed x ih =>
      have x_mem : x ∈ places := perm.mem_iff.2 (by simp)
      obtain ⟨before, after, rfl⟩ := List.append_of_mem x_mem
      have others : (before ++ after).Perm placed := by
        refine List.Perm.cons_inv (a := x) ?_
        exact List.perm_middle.symm.trans (perm.trans (List.perm_append_singleton x placed))
      obtain ⟨ascending, -, last⟩ := List.pairwise_append.1 ascending
      obtain ⟨among_before, among_after, across⟩ := List.pairwise_append.1 leads
      obtain ⟨behind, among_after⟩ := List.pairwise_cons.1 among_after
      have sorted := ih ascending others (List.pairwise_append.2
        ⟨among_before, among_after, fun a a_mem b b_mem =>
          across a a_mem b (List.mem_cons_of_mem x b_mem)⟩)
      have passed : ∀ y ∈ after.reverse, precedes x.1 y.1 = true := by
        intro y mem
        have y_mem := List.mem_reverse.1 mem
        have earlier := last y (others.mem_iff.1 (List.mem_append_right _ y_mem)) x (by simp)
        exact (behind y y_mem).2.resolve_right (Nat.lt_asymm earlier)
      have stops : ∀ y ∈ before.reverse, precedes x.1 y.1 = false := fun y mem =>
        (across y (List.mem_reverse.1 mem) x List.mem_cons_self).1
      refine List.reverse_injective ?_
      rw [sortStable_concat, sorted, List.reverse_append, insertBack_append passed stops]
      simp

/-- Inserting the element with the last place keeps a list arranged, if the elements are ranked. -/
theorem leads_insertBack {x : α × Nat} (ranks : Ranks precedes items)
    (x_mem : x.1 ∈ items) (mem : ∀ y ∈ placed, y.1 ∈ items) (last : ∀ y ∈ placed, y.2 < x.2)
    (leads : placed.Pairwise fun a b => Leads precedes b a) :
    (insertBack (fun a b => precedes a.1 b.1) x placed).Pairwise
      fun a b => Leads precedes b a := by
  induction placed with
  | nil => exact List.pairwise_singleton _ _
  | cons y rest ih =>
      obtain ⟨behind, among⟩ := List.pairwise_cons.1 leads
      have y_mem := mem y List.mem_cons_self
      rw [insertBack]
      split
      · next passes =>
          refine List.pairwise_cons.2 ⟨fun z z_mem => ?_, ih
            (fun z z_mem => mem z (List.mem_cons_of_mem y z_mem))
            (fun z z_mem => last z (List.mem_cons_of_mem y z_mem)) among⟩
          rcases List.mem_cons.1 ((insertBack_perm _ x rest).mem_iff.1 z_mem) with rfl | z_mem
          · exact ⟨ranks.asymm _ x_mem _ y_mem passes, .inl passes⟩
          · exact behind z z_mem
      · next stops =>
          refine List.pairwise_cons.2 ⟨fun z z_mem => ⟨?_, .inr (last z z_mem)⟩, leads⟩
          rcases List.mem_cons.1 z_mem with rfl | z_mem
          · exact eq_false_of_ne_true stops
          · -- What precedes an element in front of `y` precedes `y`, or `y` precedes that element.
            refine eq_false_of_ne_true fun passes => ?_
            rcases ranks.between _ x_mem _ y_mem _ (mem z (List.mem_cons_of_mem y z_mem)) passes with
              here | there
            · exact stops here
            · exact Bool.false_ne_true ((behind z z_mem).1.symm.trans there)

theorem leads_sortStable (ranks : Ranks precedes items) (mem : ∀ y ∈ placed, y.1 ∈ items)
    (ascending : placed.Pairwise (·.2 < ·.2)) :
    (sortStable (fun a b => precedes a.1 b.1) placed).Pairwise (Leads precedes) := by
  induction placed using List.reverseRecOn with
  | nil => exact .nil
  | append_singleton placed x ih =>
      obtain ⟨ascending, -, last⟩ := List.pairwise_append.1 ascending
      have before {y : α × Nat} : y ∈ (sortStable (fun a b => precedes a.1 b.1) placed).reverse →
          y ∈ placed := fun y_mem =>
        (sortStable_perm _ placed).mem_iff.1 (List.mem_reverse.1 y_mem)
      rw [← List.pairwise_reverse, sortStable_concat]
      refine leads_insertBack ranks (mem x (by simp))
        (fun y y_mem => mem y (List.mem_append_left _ (before y_mem)))
        (fun y y_mem => last y (before y_mem) x (by simp)) ?_
      rw [List.pairwise_reverse]
      exact ih (fun y y_mem => mem y (List.mem_append_left _ y_mem)) ascending

/-! ## Without the places -/

theorem zipIdx_ascending (items : List α) : items.zipIdx.Pairwise (·.2 < ·.2) := by
  have numbers : (items.zipIdx.map (·.2)).Pairwise (· < ·) := by
    rw [List.zipIdx_map_snd]
    exact List.pairwise_lt_range'
  exact List.pairwise_map.1 numbers

theorem sortStable_eq_map (precedes : α → α → Bool) (items : List α) :
    sortStable precedes items =
      (sortStable (fun a b => precedes a.1 b.1) items.zipIdx).map (·.1) := by
  rw [← sortStable_map, List.zipIdx_map_fst]

/-- If some list is arranged as asked, it is the sorted one. -/
theorem eq_sortStable_of_arranges {arranged : List α} (arranges : Arranges precedes items arranged) :
    arranged = sortStable precedes items := by
  obtain ⟨places, perm, leads, rfl⟩ := arranges
  rw [sortStable_eq_map, sortStable_eq_of_leads (zipIdx_ascending items) perm leads]

/-- If the comparison ranks the elements, the sorted list is arranged as asked. -/
theorem arranges_sortStable (ranks : Ranks precedes items) :
    Arranges precedes items (sortStable precedes items) := by
  refine ⟨_, sortStable_perm _ items.zipIdx, ?_, (sortStable_eq_map precedes items).symm⟩
  refine leads_sortStable ranks (fun y mem => ?_) (zipIdx_ascending items)
  have listed : y.1 ∈ items.zipIdx.map (·.1) := List.mem_map_of_mem mem
  rwa [List.zipIdx_map_fst] at listed

end Flowline.Feed
