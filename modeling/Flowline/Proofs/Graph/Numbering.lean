import Flowline.Proofs.Graph.Toposort
import Flowline.Run.Branch
import Flowline.Run.Region
import Mathlib.Order.Monotone.Basic

/-!
# The numbers of edges do not matter

Edges that lead nowhere take up numbers and do nothing else.  A workflow with more of them has the
same graph but for the numbers of its edges (`Graph.ofWorkflow_padded`), and nothing that is looked
up in a graph depends on those: neither nodes nor cycles nor regions nor branches.
-/

namespace Flowline

/-- An end of the edge is empty or the id of no node. -/
def Workflow.Malformed (w : Workflow) (e : Edge) : Prop := ¬ w.Names e.source ∨ ¬ w.Names e.target

/-- The second list is the first one with more elements in it, each of which has the property. -/
inductive Padded {α : Type} (P : α → Prop) : List α → List α → Prop where
  | nil : Padded P [] []
  | keep (a : α) {as bs : List α} (rest : Padded P as bs) : Padded P (a :: as) (a :: bs)
  | add {b : α} (extra : P b) {as bs : List α} (rest : Padded P as bs) : Padded P as (b :: bs)

namespace Graph

/-- The graph with other numbers for its edges. -/
def renumber (φ : Nat → Nat) (g : Graph) : Graph :=
  { g with edges := g.edges.map fun e => (φ e.1, e.2) }

/-! ## What is looked up -/

section

variable (φ : Nat → Nat) (g : Graph)

@[simp] theorem nodes_renumber : (g.renumber φ).nodes = g.nodes := rfl

@[simp] theorem ids_renumber : (g.renumber φ).ids = g.ids := rfl

@[simp] theorem node?_renumber (id : String) : (g.renumber φ).node? id = g.node? id := rfl

@[simp] theorem outgoing_renumber (id : String) :
    (g.renumber φ).outgoing id = (g.outgoing id).map fun e => (φ e.1, e.2) := by
  rw [outgoing, renumber, List.filter_map]
  rfl

@[simp] theorem incoming_renumber (id : String) :
    (g.renumber φ).incoming id = (g.incoming id).map fun e => (φ e.1, e.2) := by
  rw [incoming, renumber, List.filter_map]
  rfl

@[simp] theorem next_renumber (id : String) : (g.renumber φ).next id = g.next id := by
  simp [next, Function.comp_def]

@[simp] theorem previous_renumber (id : String) : (g.renumber φ).previous id = g.previous id := by
  simp [previous, Function.comp_def]

@[simp] theorem roots_renumber : (g.renumber φ).roots = g.roots := by
  simp [roots]

@[simp] theorem explore_renumber (seen waiting : List String) :
    (g.renumber φ).explore seen waiting = g.explore seen waiting := by
  fun_induction g.explore seen waiting with
  | case1 => rw [explore]
  | case2 seen id rest unmet _ ih =>
      rw [explore, next_renumber]
      exact (dif_pos unmet).trans ih
  | case3 seen id rest met ih =>
      rw [explore]
      exact (dif_neg met).trans ih

@[simp] theorem descendants_renumber (id : String) :
    (g.renumber φ).descendants id = g.descendants id := by
  simp [descendants]

@[simp] theorem regions_renumber : (g.renumber φ).regions = g.regions := by
  simp [regions, iteratorReach]

/-! ## Cycles -/

theorem walk_renumber (w : Walk) (stack : List String) :
    (g.renumber φ).walk w stack = g.walk w stack := by
  have same (id : String) : ((g.renumber φ).outgoing id).map (·.2.target) =
      (g.outgoing id).map (·.2.target) := by simp [Function.comp_def]
  fun_induction g.walk w stack with
  | case1 => rw [walk]
  | case2 w id rest unmet _ targets loops =>
      rw [walk, same]
      exact (dif_pos unmet).trans (if_pos loops)
  | case3 w id rest unmet _ targets straight met ih =>
      rw [walk, same]
      exact (dif_pos unmet).trans ((if_neg straight).trans ih)
  | case4 w id rest met finished ih =>
      rw [walk]
      exact (dif_neg met).trans ih

theorem firstMissing?_renumber (before ids : List String) :
    (g.renumber φ).firstMissing? before ids = g.firstMissing? before ids := by
  induction ids generalizing before with
  | nil => rfl
  | cons id rest ih =>
      have same : (g.renumber φ).missingPredecessor? before id =
          g.missingPredecessor? before id := by
        simp [missingPredecessor?, Function.comp_def]
      rw [firstMissing?, firstMissing?, same, ih]

@[simp] theorem cycleNode?_renumber : (g.renumber φ).cycleNode? = g.cycleNode? := by
  simp only [cycleNode?, walk_renumber, firstMissing?_renumber, ids_renumber]

/-! ## Branches -/

theorem edgesFor_renumber (outgoing : List (Nat × Edge)) (index : Option Nat) (conditions : Nat) :
    edgesFor (outgoing.map fun e => (φ e.1, e.2)) index conditions =
      (edgesFor outgoing index conditions).map fun e => (φ e.1, e.2) := by
  have tagged : (outgoing.map fun e => (φ e.1, e.2)).any (·.2.branch?.isSome) =
      outgoing.any (·.2.branch?.isSome) := List.any_map
  unfold edgesFor
  rw [tagged]
  split
  · rw [List.filter_map]
    rfl
  · rw [List.getElem?_map]
    cases outgoing[index.getD conditions]? <;> rfl

theorem selectBranch_renumber (outgoing : List (Nat × Edge)) (index : Option Nat)
    (conditions : Nat) :
    selectBranch (outgoing.map fun e => (φ e.1, e.2)) index conditions =
      (selectBranch outgoing index conditions).map fun e => (φ e.1, e.2) := by
  unfold selectBranch
  rw [edgesFor_renumber]
  dsimp only
  rw [List.isEmpty_map]
  split
  · rw [List.getLast?_map]
    cases outgoing.getLast? <;> rfl
  · rfl

end

/-! ## Padded workflows -/

theorem mem_known_iff {w : Workflow} {id : String} :
    (namedNodes w.nodes).any (·.id == id) = true ↔ w.Names id := by
  rw [← mem_ids_ofWorkflow]
  simp [ids, ofWorkflow]

/-- In a list with more elements, those with a property that the added ones lack come in the same
order, under higher numbers. -/
theorem filter_zipIdx_padded {α : Type} {P : α → Prop} {p : α → Bool} {as bs : List α}
    (padded : Padded P as bs) (lacks : ∀ a, P a → p a = false) (k k' : Nat) :
    ∃ φ : Nat → Nat, (∀ i, k ≤ i → k' ≤ φ i) ∧ (∀ i j, k ≤ i → i < j → φ i < φ j) ∧
      (bs.zipIdx k').filter (fun e => p e.1) =
        ((as.zipIdx k).filter fun e => p e.1).map fun e => (e.1, φ e.2) := by
  induction padded generalizing k k' with
  | nil =>
      refine ⟨fun i => k' + (i - k), fun i _ => Nat.le_add_right _ _, fun i j le lt => ?_, rfl⟩
      dsimp only
      omega
  | @keep a as bs _ ih =>
      obtain ⟨φ, above, mono, same⟩ := ih (k + 1) (k' + 1)
      -- the first number stays the first, and the rest is as before
      refine ⟨fun i => if i ≤ k then k' else φ i, fun i _ => ?_, fun i j le lt => ?_, ?_⟩
      · dsimp only
        split
        · exact Nat.le_refl _
        · have := above i (by omega)
          omega
      · have behind := above j (by omega)
        dsimp only
        rw [if_neg (by omega : ¬ j ≤ k)]
        split
        · omega
        · exact mono i j (by omega) lt
      · have rest : ((as.zipIdx (k + 1)).filter fun e => p e.1).map (fun e => (e.1, φ e.2)) =
            ((as.zipIdx (k + 1)).filter fun e => p e.1).map
              fun e => (e.1, if e.2 ≤ k then k' else φ e.2) := by
          refine List.map_congr_left fun e mem => ?_
          have le := List.le_snd_of_mem_zipIdx (List.mem_filter.1 mem).1
          rw [if_neg (by omega)]
        rw [List.zipIdx_cons, List.zipIdx_cons, List.filter_cons, List.filter_cons, same, rest]
        split
        · exact congrArg (fun n => (a, n) :: _) (if_pos (Nat.le_refl k)).symm
        · rfl
  | @add b extra as bs _ ih =>
      obtain ⟨φ, above, mono, same⟩ := ih k (k' + 1)
      refine ⟨φ, fun i le => Nat.le_of_succ_le (above i le), mono, ?_⟩
      rw [List.zipIdx_cons, List.filter_cons_of_neg (by simp [lacks b extra]), same]

/-- A workflow with more edges that lead nowhere has the same graph, with other numbers. -/
theorem ofWorkflow_padded {w : Workflow} {edges : List Edge}
    (padded : Padded w.Malformed w.edges edges) :
    ∃ φ : Nat → Nat, φ.Injective ∧
      ofWorkflow { w with edges } = (ofWorkflow w).renumber φ := by
  let known (e : Edge) : Bool := (namedNodes w.nodes).any (·.id == e.source) &&
    (namedNodes w.nodes).any (·.id == e.target)
  have lacks (e : Edge) (malformed : w.Malformed e) : known e = false := by
    rw [← Bool.not_eq_true, Bool.and_eq_true, mem_known_iff, mem_known_iff]
    exact fun both => malformed.elim (absurd both.1) (absurd both.2)
  obtain ⟨φ, -, mono, same⟩ := filter_zipIdx_padded padded lacks 0 0
  have listed (edges : List Edge) : (ofWorkflow { w with edges }).edges =
      (edges.zipIdx.filter fun e => known e.1).map fun e => (e.2, e.1) := by
    rw [ofWorkflow, List.filter_map]
    rfl
  have strict : StrictMono φ := fun i j lt => mono i j (Nat.zero_le i) lt
  refine ⟨φ, strict.injective, ?_⟩
  have edges_eq : (ofWorkflow { w with edges }).edges = ((ofWorkflow w).renumber φ).edges := by
    rw [listed, same, renumber, listed w.edges, List.map_map, List.map_map]
    rfl
  exact congrArg (Graph.mk _) edges_eq

end Graph

end Flowline
