import Flowline.Proofs.Graph.Toposort
import Mathlib.Data.List.Induction

/-!
# What the graph of a workflow shows

Ids of nodes may be shared or empty, and edges may lead nowhere, several times the same way or back
to where they start.  `Graph.Shows` says what a graph tells of such a workflow all the same: which
ids stand for which nodes, which edges count, and what lies next to a node along them.

* `Gathers`: to list elements once, in the order in which they first come.
* `Graph.shows_ofWorkflow`: the graph of any workflow shows it.
-/

namespace Flowline

/-! ## Each once, in the order in which they first come -/

/-- The second list has the elements of the first one, each once and in the order in which they
first come there. -/
structure Gathers {α : Type} [BEq α] (all kept : List α) : Prop where
  mem : ∀ a, a ∈ kept ↔ a ∈ all
  ordered : kept.Pairwise fun a b => all.idxOf a < all.idxOf b

namespace Gathers

variable {α : Type} [BEq α]

theorem nil : Gathers ([] : List α) [] := ⟨fun _ => Iff.rfl, .nil⟩

variable [LawfulBEq α] {all kept : List α} {a : α}

/-- More elements behind do not change where one first comes. -/
theorem ordered_snoc (gathers : Gathers all kept) (a : α) :
    kept.Pairwise fun b c => (all ++ [a]).idxOf b < (all ++ [a]).idxOf c := by
  refine gathers.ordered.imp_of_mem fun b_mem c_mem before => ?_
  rw [List.idxOf_append_of_mem ((gathers.mem _).1 b_mem),
    List.idxOf_append_of_mem ((gathers.mem _).1 c_mem)]
  exact before

theorem snoc_old (gathers : Gathers all kept) (old : a ∈ all) : Gathers (all ++ [a]) kept := by
  refine ⟨fun b => ?_, gathers.ordered_snoc a⟩
  rw [gathers.mem, List.mem_append, List.mem_singleton, or_iff_left_of_imp]
  rintro rfl
  exact old

theorem snoc_new (gathers : Gathers all kept) (new : a ∉ all) :
    Gathers (all ++ [a]) (kept ++ [a]) := by
  refine ⟨fun b => by simp only [List.mem_append, gathers.mem], ?_⟩
  rw [List.pairwise_append]
  refine ⟨gathers.ordered_snoc a, List.pairwise_singleton _ a, fun b b_mem c c_mem => ?_⟩
  have mem : b ∈ all := (gathers.mem b).1 b_mem
  rw [List.mem_singleton.1 c_mem, List.idxOf_append_of_mem mem, List.idxOf_append_of_notMem new]
  exact Nat.lt_of_lt_of_le (List.idxOf_lt_length_iff.2 mem) (Nat.le_add_right _ _)

end Gathers

theorem gathers_distinct {α : Type} [BEq α] [LawfulBEq α] (items : List α) :
    Gathers items (distinct items) := by
  induction items using List.reverseRecOn with
  | nil => exact .nil
  | append_singleton items a ih =>
      have more : distinct (items ++ [a]) =
          if (distinct items).contains a then distinct items else distinct items ++ [a] := by
        rw [distinct, List.foldl_append]
        rfl
      rw [more]
      split
      · next old => exact ih.snoc_old (by simpa [mem_distinct] using old)
      · next new => exact ih.snoc_new (by simpa [mem_distinct] using new)

/-! ## What there is to show -/

/-- An edge of the workflow, with its number, that leads from an id of a node to an id of a node. -/
def Workflow.Counts (w : Workflow) (e : Nat × Edge) : Prop :=
  w.edges[e.1]? = some e.2 ∧ w.Names e.2.source ∧ w.Names e.2.target

namespace Graph

/-- What a graph has to tell of a workflow. -/
structure Shows (g : Graph) (w : Workflow) : Prop where
  /-- The ids that are not empty, in the order of the nodes. -/
  ids : Gathers ((w.nodes.map (·.id)).filter (· != "")) g.ids
  node : ∀ id, g.node? id = if id = "" then none else w.node? id
  outgoing : ∀ id e, e ∈ g.outgoing id ↔ w.Counts e ∧ e.2.source = id
  incoming : ∀ id e, e ∈ g.incoming id ↔ w.Counts e ∧ e.2.target = id
  outgoing_ascends : ∀ id, (g.outgoing id).Pairwise (·.1 < ·.1)
  incoming_ascends : ∀ id, (g.incoming id).Pairwise (·.1 < ·.1)
  /-- An edge that counts stands once among the edges out of its source, once among those into its
  target, and nowhere else. -/
  once : ∀ e, w.Counts e → ∀ id,
    ((g.outgoing id).map (·.1)).count e.1 = (if id = e.2.source then 1 else 0) ∧
      ((g.incoming id).map (·.1)).count e.1 = if id = e.2.target then 1 else 0
  next : ∀ id, Gathers ((g.outgoing id).map (·.2.target)) (g.next id)
  previous : ∀ id, Gathers ((g.incoming id).map (·.2.source)) (g.previous id)
  dual : ∀ source target, target ∈ g.next source ↔ source ∈ g.previous target
  listed : ∀ source target, target ∈ g.next source → source ∈ g.ids ∧ target ∈ g.ids
  /-- The ids without an edge into them, in the order of the nodes. -/
  roots : g.roots.Sublist g.ids ∧
    ∀ id, id ∈ g.roots ↔ id ∈ g.ids ∧ ¬ ∃ e, w.Counts e ∧ e.2.target = id

/-! ## The nodes -/

variable {nodes : List Node} {n : Node}

theorem namedNodes_snoc (nodes : List Node) (n : Node) :
    namedNodes (nodes ++ [n]) =
      if n.id = "" ∨ (namedNodes nodes).any (·.id == n.id) then namedNodes nodes
      else namedNodes nodes ++ [n] := by
  rw [namedNodes, List.foldl_append]
  rfl

theorem any_namedNodes_iff {id : String} :
    (namedNodes nodes).any (·.id == id) = true ↔ id ≠ "" ∧ id ∈ nodes.map (·.id) := by
  rw [← mem_ids_namedNodes]
  simp

theorem namedNodes_snoc_old (old : n.id = "" ∨ n.id ∈ nodes.map (·.id)) :
    namedNodes (nodes ++ [n]) = namedNodes nodes := by
  rw [namedNodes_snoc, if_pos]
  by_cases empty : n.id = ""
  · exact .inl empty
  · exact .inr (any_namedNodes_iff.2 ⟨empty, old.resolve_left empty⟩)

theorem namedNodes_snoc_new (named : n.id ≠ "") (new : n.id ∉ nodes.map (·.id)) :
    namedNodes (nodes ++ [n]) = namedNodes nodes ++ [n] := by
  rw [namedNodes_snoc, if_neg]
  exact not_or.2 ⟨named, fun old => new (any_namedNodes_iff.1 old).2⟩

/-- The ids that are not empty come each once, in the order of the nodes. -/
theorem gathers_namedNodes (nodes : List Node) :
    Gathers ((nodes.map (·.id)).filter (· != "")) ((namedNodes nodes).map (·.id)) := by
  induction nodes using List.reverseRecOn with
  | nil => exact .nil
  | append_singleton nodes n ih =>
      rw [List.map_append, List.filter_append, List.map_singleton]
      by_cases empty : n.id = ""
      · rw [namedNodes_snoc_old (.inl empty)]
        simpa [empty] using ih
      · have listed : n.id ∈ (nodes.map (·.id)).filter (· != "") ↔ n.id ∈ nodes.map (·.id) := by
          simp [empty]
        rw [List.filter_cons_of_pos (by simpa using empty), List.filter_nil]
        by_cases old : n.id ∈ nodes.map (·.id)
        · rw [namedNodes_snoc_old (.inr old)]
          exact ih.snoc_old (listed.2 old)
        · rw [namedNodes_snoc_new empty old, List.map_append, List.map_singleton]
          exact ih.snoc_new (mt listed.1 old)

/-- An id that is not empty stands for the first node that has it. -/
theorem find?_namedNodes (nodes : List Node) (id : String) :
    (namedNodes nodes).find? (·.id == id) =
      if id = "" then none else nodes.find? (·.id == id) := by
  induction nodes using List.reverseRecOn with
  | nil => simp [namedNodes]
  | append_singleton nodes n ih =>
      rw [List.find?_append, List.find?_singleton]
      by_cases empty : n.id = ""
      · rw [namedNodes_snoc_old (.inl empty), ih]
        split
        · rfl
        · next named =>
            have other : ¬ (n.id == id) = true := by simpa [empty] using Ne.symm named
            rw [if_neg other, Option.or_none]
      · by_cases old : n.id ∈ nodes.map (·.id)
        · rw [namedNodes_snoc_old (.inr old), ih]
          split
          · rfl
          · split
            · next here =>
                have found : (nodes.find? (·.id == id)).isSome = true := by
                  rw [beq_iff_eq] at here
                  simpa [← here] using old
                rw [Option.or_of_isSome found]
            · rw [Option.or_none]
        · rw [namedNodes_snoc_new empty old, List.find?_append, List.find?_singleton, ih]
          split
          · next blank => rw [if_neg (by simpa [blank] using empty), Option.or_none]
          · rfl

/-! ## The edges -/

variable {w : Workflow}

theorem edges_ascend (w : Workflow) : (ofWorkflow w).edges.Pairwise (·.1 < ·.1) := by
  have numbers : (w.edges.zipIdx.map fun e => (e.2, e.1)).Pairwise (·.1 < ·.1) := by
    rw [List.pairwise_map, ← List.pairwise_map (f := Prod.snd) (R := (· < ·)), List.zipIdx_map_snd]
    exact List.pairwise_lt_range'
  exact numbers.filter _

theorem mem_outgoing_ofWorkflow {id : String} {e : Nat × Edge} :
    e ∈ (ofWorkflow w).outgoing id ↔ w.Counts e ∧ e.2.source = id := by
  rw [mem_outgoing, mem_edges_ofWorkflow, Workflow.Counts]

theorem mem_incoming_ofWorkflow {id : String} {e : Nat × Edge} :
    e ∈ (ofWorkflow w).incoming id ↔ w.Counts e ∧ e.2.target = id := by
  rw [mem_incoming, mem_edges_ofWorkflow, Workflow.Counts]

theorem mem_previous {g : Graph} {source target : String} :
    source ∈ g.previous target ↔ g.Adj source target := by
  simp only [previous, mem_distinct, List.mem_map, mem_incoming, Adj, and_right_comm, and_assoc]

/-- In a list that ascends, the number of an edge that counts stands once if the edge is in it, and
else not at all. -/
theorem count_number {edges : List (Nat × Edge)} {e : Nat × Edge} {p : Prop} [Decidable p]
    (ascends : edges.Pairwise (·.1 < ·.1)) (counted : w.Counts e)
    (mem : ∀ d, d ∈ edges → w.Counts d) (here : e ∈ edges ↔ p) :
    (edges.map (·.1)).count e.1 = if p then 1 else 0 := by
  have distinct : (edges.map (·.1)).Nodup :=
    List.pairwise_map.2 (ascends.imp fun before => Nat.ne_of_lt before)
  have same : e.1 ∈ edges.map (·.1) ↔ p := by
    rw [← here, List.mem_map]
    constructor
    · rintro ⟨d, d_mem, number⟩
      have edge : some d.2 = some e.2 := by
        rw [← (mem d d_mem).1, ← counted.1, number]
      rwa [← Prod.ext number (Option.some.inj edge)]
    · exact fun e_mem => ⟨e, e_mem, rfl⟩
  rw [List.Nodup.count distinct]
  exact if_congr same rfl rfl

/-- The graph of a workflow shows it. -/
theorem shows_ofWorkflow (w : Workflow) : (ofWorkflow w).Shows w where
  ids := gathers_namedNodes w.nodes
  node := find?_namedNodes w.nodes
  outgoing id e := mem_outgoing_ofWorkflow
  incoming id e := mem_incoming_ofWorkflow
  outgoing_ascends id := (edges_ascend w).filter _
  incoming_ascends id := (edges_ascend w).filter _
  once e counted id := by
    constructor
    · refine count_number ((edges_ascend w).filter _) counted
        (fun d mem => (mem_outgoing_ofWorkflow.1 mem).1) ?_
      rw [mem_outgoing_ofWorkflow, and_iff_right counted, eq_comm]
    · refine count_number ((edges_ascend w).filter _) counted
        (fun d mem => (mem_incoming_ofWorkflow.1 mem).1) ?_
      rw [mem_incoming_ofWorkflow, and_iff_right counted, eq_comm]
  next id := gathers_distinct _
  previous id := gathers_distinct _
  dual source target := by
    rw [mem_next, mem_previous]
  listed source target mem := by
    have adj := mem_next.1 mem
    exact ⟨adj.source_mem (wellFormed_ofWorkflow w), adj.target_mem (wellFormed_ofWorkflow w)⟩
  roots := by
    refine ⟨List.filter_sublist, fun id => ?_⟩
    rw [Graph.roots, List.mem_filter, List.isEmpty_iff, List.eq_nil_iff_forall_not_mem]
    simp only [mem_incoming_ofWorkflow, not_exists]

end Graph

end Flowline
