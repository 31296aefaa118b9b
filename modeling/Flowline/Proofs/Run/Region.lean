import Flowline.Proofs.Graph.Reach
import Flowline.Run.Frame
import Mathlib.Data.List.Perm.Subperm
import Mathlib.Tactic.Tauto

/-!
# The regions of iterators

`Graph.Repeats` says which nodes an iterator repeats: those that it reaches, unless they are also
reached from an unrelated iterator.  In an acyclic graph these are the members of its region
(`Plane.mem_regionOf`), and the regions lie in each other like brackets.

* `Graph.Repeats.between`: a region has all nodes between its iterator and any of its nodes.
* `Graph.Repeats.trans`, `Graph.Repeats.nested`: regions that meet are nested.
* `Graph.weight_lt`: iterators, each taken together with its region, and the nodes outside all
  regions can be put in order such that no edge leads back.
-/

namespace Flowline

namespace Graph

/-- The node is an iterator. -/
def IsIterator (g : Graph) (id : String) : Prop := ∃ n ∈ g.nodes, n.id = id ∧ n.kind = .iterator

/-- The iterator repeats the node: it reaches it, and so does no iterator that is unrelated. -/
structure Repeats (g : Graph) (iterator id : String) : Prop where
  isIterator : g.IsIterator iterator
  reaches : g.Reaches iterator id
  related : ∀ other, g.IsIterator other → g.Reaches other id →
    other = iterator ∨ g.Reaches iterator other ∨ g.Reaches other iterator

variable {g : Graph} {I J id m : String}

theorem Repeats.ne (acyclic : g.Acyclic) (repeats : g.Repeats I id) : id ≠ I := by
  rintro rfl
  exact acyclic id repeats.reaches

/-- What lies between an iterator and a node that it repeats is repeated too. -/
theorem Repeats.between (repeats : g.Repeats I id) (from_iterator : g.Reaches I m)
    (to_node : g.Reaches m id) : g.Repeats I m where
  isIterator := repeats.isIterator
  reaches := from_iterator
  related other is reaches := repeats.related other is (reaches.trans to_node)

/-- An iterator repeats what an iterator that it repeats does. -/
theorem Repeats.trans (outer : g.Repeats I J) (inner : g.Repeats J id) : g.Repeats I id where
  isIterator := outer.isIterator
  reaches := outer.reaches.trans inner.reaches
  related other is reaches := by
    rcases inner.related other is reaches with rfl | below | above
    · exact Or.inr (Or.inl outer.reaches)
    · exact Or.inr (Or.inl (outer.reaches.trans below))
    · exact outer.related other is above

/-- Of two iterators that repeat the same node, one repeats the other. -/
theorem Repeats.nested (left : g.Repeats I id) (right : g.Repeats J id) :
    I = J ∨ g.Repeats I J ∨ g.Repeats J I := by
  rcases left.related J right.isIterator right.reaches with rfl | below | above
  · exact Or.inl rfl
  · exact Or.inr (Or.inl (left.between below right.reaches))
  · exact Or.inr (Or.inr (right.between above left.reaches))

/-! ## What lies before a node -/

/-- The nodes from which a node can be reached. -/
def before (g : Graph) (id : String) : List String :=
  g.ids.filter fun a => (g.descendants a).contains id

/-- The iterators at or before a node. -/
def iteratorsTo (g : Graph) (id : String) : List String :=
  (g.nodes.filter (·.kind = .iterator)).map (·.id) |>.filter fun a =>
    a == id || (g.descendants a).contains id

theorem mem_before (wf : g.WellFormed) (acyclic : g.Acyclic) :
    m ∈ g.before id ↔ g.Reaches m id := by
  simp only [before, List.mem_filter, List.contains_iff_mem, mem_descendants wf]
  constructor
  · exact fun h => h.2.2
  · intro reaches
    refine ⟨reaches.source_mem wf, ?_, reaches⟩
    rintro rfl
    exact acyclic _ reaches

theorem mem_iteratorsTo (wf : g.WellFormed) (acyclic : g.Acyclic) :
    I ∈ g.iteratorsTo id ↔ g.IsIterator I ∧ (I = id ∨ g.Reaches I id) := by
  simp only [iteratorsTo, List.mem_filter, List.mem_map, Bool.or_eq_true, beq_iff_eq,
    List.contains_iff_mem, mem_descendants wf, IsIterator, decide_eq_true_eq]
  constructor
  · rintro ⟨⟨n, ⟨mem, kind⟩, rfl⟩, place⟩
    exact ⟨⟨n, mem, rfl, kind⟩, place.imp_right (·.2)⟩
  · rintro ⟨⟨n, mem, rfl, kind⟩, place⟩
    refine ⟨⟨n, ⟨mem, kind⟩, rfl⟩, place.imp_right fun reaches => ⟨?_, reaches⟩⟩
    rintro rfl
    exact acyclic _ reaches

theorem nodup_before (wf : g.WellFormed) (id : String) : (g.before id).Nodup :=
  wf.ids.filter _

theorem nodup_iteratorsTo (wf : g.WellFormed) (id : String) : (g.iteratorsTo id).Nodup :=
  (wf.ids.sublist (List.Sublist.map _ List.filter_sublist)).filter _

/-- A list without repetition that has all of another and something more is longer. -/
theorem length_lt_of_mem_of_not_mem {α : Type} {short long : List α} {a : α}
    (distinct : short.Nodup) (sub : short ⊆ long) (mem : a ∈ long) (new : a ∉ short) :
    short.length < long.length := by
  have longer : (a :: short).length ≤ long.length :=
    (List.Nodup.subperm (List.nodup_cons.2 ⟨new, distinct⟩)
      (List.cons_subset.2 ⟨mem, sub⟩)).length_le
  rw [List.length_cons] at longer
  exact longer

theorem length_before_lt (wf : g.WellFormed) (acyclic : g.Acyclic) (reaches : g.Reaches m id) :
    (g.before m).length < (g.before id).length := by
  refine length_lt_of_mem_of_not_mem (nodup_before wf m) ?_
    ((mem_before wf acyclic).2 reaches) ?_
  · intro a mem
    exact (mem_before wf acyclic).2 (((mem_before wf acyclic).1 mem).trans reaches)
  · intro mem
    exact acyclic m ((mem_before wf acyclic).1 mem)

theorem length_before_le (id : String) : (g.before id).length ≤ g.ids.length :=
  List.length_filter_le _ _

/-! ## The order of units -/

/-- The node with what it repeats. -/
def InUnit (g : Graph) (u id : String) : Prop := id = u ∨ g.Repeats u id

/-- The place of a node in an order of units: first by the iterators at or before it, then by the
nodes before it. -/
def weight (g : Graph) (id : String) : Nat :=
  (g.iteratorsTo id).length * (g.ids.length + 1) + (g.before id).length

theorem InUnit.reflReaches {u : String} (unit : g.InUnit u id) :
    id = u ∨ g.Reaches u id := unit.imp_right Repeats.reaches

variable {u v a b : String}

theorem reaches_of_unit_adj (unit : g.InUnit u a) (adj : g.Adj a b) : g.Reaches u b := by
  rcases unit.reflReaches with rfl | reaches
  · exact .single adj
  · exact reaches.tail adj

/-- An iterator at or before a unit is at or before each unit that an edge out of it leads to,
unless one of the two repeats the other. -/
theorem iterator_before_of_adj (apart : ¬ g.Repeats v u)
    (from_unit : g.InUnit u a) (adj : g.Adj a b) (to_unit : g.InUnit v b)
    (is : g.IsIterator I) (place : I = u ∨ g.Reaches I u) : I = v ∨ g.Reaches I v := by
  have down : g.Reaches u b := reaches_of_unit_adj from_unit adj
  have reaches : g.Reaches I b := by
    rcases place with rfl | place
    · exact down
    · exact place.trans down
  rcases to_unit with rfl | repeats
  · exact Or.inr reaches
  · rcases repeats.related I is reaches with rfl | below | above
    · exact Or.inl rfl
    · refine absurd ?_ apart
      rcases place with rfl | place
      · exact repeats.between below down
      · exact repeats.between (below.trans place) down
    · exact Or.inr above

/-- No edge between units leads back in the order of weights. -/
theorem weight_lt (wf : g.WellFormed) (acyclic : g.Acyclic) (differ : u ≠ v)
    (apart : ¬ g.Repeats v u) (from_unit : g.InUnit u a) (adj : g.Adj a b)
    (to_unit : g.InUnit v b) : g.weight u < g.weight v := by
  have down : g.Reaches u b := reaches_of_unit_adj from_unit adj
  have sub : g.iteratorsTo u ⊆ g.iteratorsTo v := by
    intro I mem
    obtain ⟨is, place⟩ := (mem_iteratorsTo wf acyclic).1 mem
    exact (mem_iteratorsTo wf acyclic).2
      ⟨is, iterator_before_of_adj apart from_unit adj to_unit is place⟩
  have bound := length_before_le (g := g) u
  unfold weight
  by_cases is : g.IsIterator v
  · have later : v ∉ g.iteratorsTo u := by
      intro mem
      rcases ((mem_iteratorsTo wf acyclic).1 mem).2 with rfl | above
      · exact differ rfl
      · rcases to_unit with rfl | repeats
        · exact acyclic _ (above.trans down)
        · exact apart (repeats.between above down)
    have more : (g.iteratorsTo u).length < (g.iteratorsTo v).length :=
      length_lt_of_mem_of_not_mem (nodup_iteratorsTo wf u) sub
        ((mem_iteratorsTo wf acyclic).2 ⟨is, Or.inl rfl⟩) later
    have scaled := Nat.mul_le_mul_right (g.ids.length + 1) more
    rw [Nat.succ_mul] at scaled
    omega
  · have arrives : b = v := to_unit.resolve_right fun repeats => is repeats.isIterator
    have more := length_before_lt wf acyclic (arrives ▸ down)
    have same : (g.iteratorsTo u).length ≤ (g.iteratorsTo v).length :=
      (List.Nodup.subperm (nodup_iteratorsTo wf u) sub).length_le
    have scaled := Nat.mul_le_mul_right (g.ids.length + 1) same
    omega

end Graph

/-! ## The regions of a plane -/

namespace Plane

/-- The region of an iterator; any other node has none. -/
def regionOf (p : Plane) (id : String) : List String := (p.region? id).getD []

variable {g : Graph} {I id : String}

theorem find?_iteratorReach (I : String) :
    g.iteratorReach.find? (·.1 == I) =
      if g.nodes.any fun n => n.kind = .iterator && n.id == I
      then some (I, g.descendants I) else none := by
  unfold Graph.iteratorReach
  rw [List.find?_map]
  split
  · next known =>
      obtain ⟨n, mem, hit⟩ := List.any_eq_true.1 known
      have found : ((g.nodes.filter (·.kind = .iterator)).find? (·.id == I)).isSome := by
        rw [List.find?_isSome]
        obtain ⟨iterates, same⟩ := Bool.and_eq_true_iff.1 hit
        exact ⟨n, by simpa [mem] using iterates, same⟩
      obtain ⟨m, found⟩ := Option.isSome_iff_exists.1 found
      have same : m.id = I := by simpa using List.find?_some found
      simp [Function.comp_def, found, same]
  · next unknown =>
      have missing : (g.nodes.filter (·.kind = .iterator)).find? (·.id == I) = none := by
        rw [List.find?_eq_none]
        intro n mem hit
        rw [List.mem_filter] at mem
        exact unknown (List.any_eq_true.2 ⟨n, mem.1, by simpa using ⟨by simpa using mem.2, by
          simpa using hit⟩⟩)
      simp [Function.comp_def, missing]

theorem regionOf_eq (I : String) :
    (ofGraph g).regionOf I =
      if g.nodes.any fun n => n.kind = .iterator && n.id == I then
        g.ids.filter fun id => (g.descendants I).contains id &&
          Graph.staysInRegion g.iteratorReach I (g.descendants I) id
      else [] := by
  unfold regionOf region? ofGraph Graph.regions Entries.get?
  rw [List.find?_map]
  have search := find?_iteratorReach (g := g) I
  simp only [Function.comp_def] at search ⊢
  rw [search]
  split <;> rfl

theorem staysInRegion_iff (wf : g.WellFormed) (acyclic : g.Acyclic) :
    Graph.staysInRegion g.iteratorReach I (g.descendants I) id = true ↔
      ∀ other, g.IsIterator other → g.Reaches other id →
        other = I ∨ g.Reaches I other ∨ g.Reaches other I := by
  have descends {a b : String} : b ∈ g.descendants a ↔ g.Reaches a b := by
    rw [Graph.mem_descendants wf]
    refine ⟨And.right, fun reaches => ⟨?_, reaches⟩⟩
    rintro rfl
    exact acyclic _ reaches
  simp only [Graph.staysInRegion, Graph.iteratorReach, List.all_eq_true, List.mem_map,
    List.mem_filter, decide_eq_true_eq, forall_exists_index, and_imp, Bool.or_eq_true,
    beq_iff_eq, Bool.not_eq_true', List.contains_iff_mem, Graph.IsIterator]
  constructor
  · rintro all other n mem rfl kind reaches
    have verdict := all _ n mem kind rfl
    simp only [List.contains_iff_mem, descends, ← Bool.not_eq_true] at verdict
    tauto
  · rintro all entry n mem kind rfl
    have verdict := all n.id n mem rfl kind
    simp only [List.contains_iff_mem, descends, ← Bool.not_eq_true]
    tauto

/-- The region of an iterator has the nodes that it repeats. -/
theorem mem_regionOf (wf : g.WellFormed) (acyclic : g.Acyclic) :
    id ∈ (ofGraph g).regionOf I ↔ g.Repeats I id := by
  have iterator : (g.nodes.any fun n => n.kind = .iterator && n.id == I) = true ↔
      g.IsIterator I := by
    simp only [List.any_eq_true, Bool.and_eq_true, decide_eq_true_eq, beq_iff_eq,
      Graph.IsIterator]
    exact ⟨fun ⟨n, mem, kind, same⟩ => ⟨n, mem, same, kind⟩,
      fun ⟨n, mem, same, kind⟩ => ⟨n, mem, kind, same⟩⟩
  rw [regionOf_eq]
  split
  · next known =>
      simp only [List.mem_filter, Bool.and_eq_true, List.contains_iff_mem,
        staysInRegion_iff wf acyclic, Graph.mem_descendants wf]
      constructor
      · rintro ⟨-, ⟨-, reaches⟩, related⟩
        exact ⟨iterator.1 known, reaches, related⟩
      · intro repeats
        exact ⟨repeats.reaches.target_mem wf, ⟨repeats.ne acyclic, repeats.reaches⟩,
          repeats.related⟩
  · next unknown =>
      refine ⟨fun mem => by simp at mem, fun repeats => ?_⟩
      exact absurd (iterator.2 repeats.isIterator) unknown

theorem regionOf_sublist (I : String) : ((ofGraph g).regionOf I).Sublist g.ids := by
  rw [regionOf_eq]
  split
  · exact List.filter_sublist
  · exact List.nil_sublist _

end Plane

end Flowline
