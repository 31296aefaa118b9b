import Flowline.Graph.Reach
import Mathlib.Data.List.Nodup
import Mathlib.Logic.Relation

/-!
# Reachability is what it should be

`Graph.Adj` is the relation that the edges of a graph make, `Graph.Reaches` its transitive closure,
and `Graph.Acyclic` says that no node reaches itself.

* `Graph.wellFormed_ofWorkflow`: in the graph of any workflow each id stands for one node, each
  number for one edge, and every edge has both of its ends.
* `Graph.mem_descendants`: the descendants of a node are the other nodes that it reaches.
-/

namespace Flowline

theorem mem_distinct {α : Type} [BEq α] [LawfulBEq α] {items : List α} {a : α} :
    a ∈ distinct items ↔ a ∈ items := by
  have step : ∀ seen : List α, a ∈ items.foldl
      (fun seen a => if seen.contains a then seen else seen ++ [a]) seen ↔
        a ∈ seen ∨ a ∈ items := by
    induction items with
    | nil => simp
    | cons b rest ih =>
        intro seen
        rw [List.foldl_cons, ih]
        split
        · next held =>
            have held : b ∈ seen := by simpa using held
            constructor
            · rintro (mem | mem)
              · exact Or.inl mem
              · exact Or.inr (List.mem_cons_of_mem _ mem)
            · rintro (mem | mem)
              · exact Or.inl mem
              · rcases List.mem_cons.1 mem with rfl | mem
                · exact Or.inl held
                · exact Or.inr mem
        · simp [or_assoc]
  simpa [distinct] using step []

namespace Graph

/-- An edge leads from one node to the other. -/
def Adj (g : Graph) (source target : String) : Prop :=
  ∃ e ∈ g.edges, e.2.source = source ∧ e.2.target = target

/-- A path of at least one edge leads from one node to the other. -/
abbrev Reaches (g : Graph) : String → String → Prop := Relation.TransGen g.Adj

/-- No node reaches itself. -/
def Acyclic (g : Graph) : Prop := ∀ id, ¬ g.Reaches id id

/-- Each id stands for one node, each number for one edge, and each edge has both of its ends. -/
structure WellFormed (g : Graph) : Prop where
  ids : g.ids.Nodup
  ends : ∀ e ∈ g.edges, e.2.source ∈ g.ids ∧ e.2.target ∈ g.ids
  numbers : (g.edges.map (·.1)).Nodup

variable {g : Graph} {id source target : String} {e : Nat × Edge}

theorem mem_outgoing : e ∈ g.outgoing id ↔ e ∈ g.edges ∧ e.2.source = id := by
  simp [outgoing]

theorem mem_incoming : e ∈ g.incoming id ↔ e ∈ g.edges ∧ e.2.target = id := by
  simp [incoming]

theorem mem_next : target ∈ g.next source ↔ g.Adj source target := by
  simp only [next, mem_distinct, List.mem_map, mem_outgoing, Adj, and_assoc]

theorem adj_of_mem_incoming (mem : e ∈ g.incoming id) : g.Adj e.2.source id := by
  obtain ⟨edge, rfl⟩ := mem_incoming.1 mem
  exact ⟨e, edge, rfl, rfl⟩

theorem node?_eq_some_iff {n : Node} (wf : g.WellFormed) :
    g.node? id = some n ↔ n ∈ g.nodes ∧ n.id = id := by
  constructor
  · intro found
    exact ⟨List.mem_of_find?_eq_some found, by simpa using List.find?_some found⟩
  · rintro ⟨mem, rfl⟩
    obtain ⟨before, after, nodes⟩ := List.append_of_mem mem
    have distinct : (g.nodes.map (·.id)).Nodup := wf.ids
    rw [nodes, List.map_append, List.map_cons, List.nodup_append] at distinct
    have differs := distinct.2.2
    rw [node?, nodes, List.find?_append, List.find?_eq_none.2, Option.none_or,
      List.find?_cons_of_pos (by simp)]
    intro m m_mem
    simpa using differs m.id (List.mem_map_of_mem m_mem) n.id (by simp)

theorem exists_node?_of_mem_ids (wf : g.WellFormed) (mem : id ∈ g.ids) :
    ∃ n, g.node? id = some n ∧ n ∈ g.nodes ∧ n.id = id := by
  obtain ⟨n, n_mem, same⟩ := List.mem_map.1 mem
  exact ⟨n, (node?_eq_some_iff wf).2 ⟨n_mem, same⟩, n_mem, same⟩

/-- Edges with one number are one edge. -/
theorem WellFormed.eq_of_number (wf : g.WellFormed) {d : Nat × Edge} (d_mem : d ∈ g.edges)
    (e_mem : e ∈ g.edges) (same : d.1 = e.1) : d = e :=
  List.inj_on_of_nodup_map wf.numbers d_mem e_mem same

/-- A graph whose edges all lead to a higher rank is acyclic. -/
theorem acyclic_of_rank (rank : String → Nat)
    (ascends : ∀ e ∈ g.edges, rank e.2.source < rank e.2.target) : g.Acyclic := by
  have climbs {a b : String} (reaches : g.Reaches a b) : rank a < rank b := by
    induction reaches with
    | single adj =>
        obtain ⟨e, edge, rfl, rfl⟩ := adj
        exact ascends e edge
    | tail _ adj ih =>
        obtain ⟨e, edge, rfl, rfl⟩ := adj
        exact Nat.lt_trans ih (ascends e edge)
  exact fun id reaches => Nat.lt_irrefl _ (climbs reaches)

theorem Adj.source_mem (wf : g.WellFormed) (adj : g.Adj source target) : source ∈ g.ids := by
  obtain ⟨e, mem, rfl, -⟩ := adj
  exact (wf.ends e mem).1

theorem Adj.target_mem (wf : g.WellFormed) (adj : g.Adj source target) : target ∈ g.ids := by
  obtain ⟨e, mem, -, rfl⟩ := adj
  exact (wf.ends e mem).2

theorem Reaches.source_mem (wf : g.WellFormed) (reaches : g.Reaches source target) :
    source ∈ g.ids := by
  obtain ⟨middle, adj, -⟩ := Relation.TransGen.head'_iff.1 reaches
  exact adj.source_mem wf

theorem Reaches.target_mem (wf : g.WellFormed) (reaches : g.Reaches source target) :
    target ∈ g.ids := by
  obtain ⟨middle, -, adj⟩ := Relation.TransGen.tail'_iff.1 reaches
  exact adj.target_mem wf

/-! ## The graph of a workflow -/

theorem nodup_namedNodes (nodes : List Node) : ((namedNodes nodes).map (·.id)).Nodup := by
  have step : ∀ (nodes kept : List Node), (kept.map (·.id)).Nodup → ((nodes.foldl
      (fun kept n => if n.id = "" ∨ kept.any (·.id == n.id) then kept else kept ++ [n])
      kept).map (·.id)).Nodup := by
    intro nodes
    induction nodes with
    | nil => exact fun _ distinct => distinct
    | cons n rest ih =>
        intro kept distinct
        rw [List.foldl_cons]
        refine ih _ ?_
        split
        · exact distinct
        · next new =>
            simp only [List.any_eq_true, beq_iff_eq, not_or, not_exists, not_and] at new
            rw [List.map_append, List.nodup_append]
            refine ⟨distinct, by simp, ?_⟩
            simpa using new.2
  exact step nodes [] (by simp)

theorem wellFormed_ofWorkflow (w : Workflow) : (ofWorkflow w).WellFormed where
  ids := nodup_namedNodes w.nodes
  ends := by
    intro e mem
    have known := (List.mem_filter.1 mem).2
    simpa [ids, ofWorkflow] using known
  numbers := by
    have all : ((w.edges.zipIdx.map fun e => (e.2, e.1)).map (·.1)).Nodup := by
      simp [Function.comp_def, List.zipIdx_map_snd, List.nodup_range']
    exact all.sublist (List.Sublist.map _ List.filter_sublist)

/-! ## Exploring -/

/-- What is explored has been seen, or is reached from something that waits. -/
theorem reaches_of_mem_explore {seen waiting : List String} (mem : id ∈ g.explore seen waiting) :
    id ∈ seen ∨ ∃ start ∈ waiting, Relation.ReflTransGen g.Adj start id := by
  induction seen, waiting using explore.induct g with
  | case1 seen =>
      rw [explore] at mem
      exact Or.inl mem
  | case2 seen first rest new _ ih =>
      rw [explore, dif_pos new] at mem
      rcases ih mem with held | ⟨start, waits, path⟩
      · rcases List.mem_cons.1 held with rfl | held
        · exact Or.inr ⟨id, by simp, .refl⟩
        · exact Or.inl held
      · rcases List.mem_append.1 waits with next | waits
        · exact Or.inr ⟨first, by simp, .head (mem_next.1 next) path⟩
        · exact Or.inr ⟨start, by simp [waits], path⟩
  | case3 seen first rest old ih =>
      rw [explore, dif_neg old] at mem
      rcases ih mem with held | ⟨start, waits, path⟩
      · exact Or.inl held
      · exact Or.inr ⟨start, by simp [waits], path⟩

theorem mem_explore_of_mem_seen {seen waiting : List String} (mem : id ∈ seen) :
    id ∈ g.explore seen waiting := by
  induction seen, waiting using explore.induct g with
  | case1 seen =>
      rw [explore]
      exact mem
  | case2 seen first rest new _ ih =>
      rw [explore, dif_pos new]
      exact ih (by simp [mem])
  | case3 seen first rest old ih =>
      rw [explore, dif_neg old]
      exact ih mem

/-- If every edge out of what has been seen leads to something seen or waiting, no edge leads out of
what is explored. -/
theorem explore_closed (wf : g.WellFormed) {seen waiting : List String}
    (frontier : ∀ a ∈ seen, ∀ b, g.Adj a b → b ∈ seen ∨ b ∈ waiting) :
    ∀ a ∈ g.explore seen waiting, ∀ b, g.Adj a b → b ∈ g.explore seen waiting := by
  induction seen, waiting using explore.induct g with
  | case1 seen =>
      rw [explore]
      intro a mem b adj
      simpa using frontier a mem b adj
  | case2 seen first rest new _ ih =>
      rw [explore, dif_pos new]
      refine ih fun a mem b adj => ?_
      rcases List.mem_cons.1 mem with rfl | mem
      · exact Or.inr (List.mem_append_left _ (mem_next.2 adj))
      · rcases frontier a mem b adj with held | waits
        · exact Or.inl (List.mem_cons_of_mem _ held)
        · rcases List.mem_cons.1 waits with rfl | waits
          · exact Or.inl (by simp)
          · exact Or.inr (List.mem_append_right _ waits)
  | case3 seen first rest old ih =>
      rw [explore, dif_neg old]
      refine ih fun a mem b adj => ?_
      rcases frontier a mem b adj with held | waits
      · exact Or.inl held
      · rcases List.mem_cons.1 waits with rfl | waits
        · have known := adj.target_mem wf
          simp only [not_and, Bool.not_eq_false, List.contains_iff_mem] at old
          exact Or.inl (old known)
        · exact Or.inr waits

/-- The descendants of a node are the other nodes that it reaches. -/
theorem mem_descendants (wf : g.WellFormed) :
    target ∈ g.descendants source ↔ target ≠ source ∧ g.Reaches source target := by
  unfold descendants
  split
  · rw [List.mem_filter]
    simp only [bne_iff_ne, ne_eq, and_comm (a := ¬ target = source)]
    refine and_congr_left fun other => ⟨fun mem => ?_, fun reaches => ?_⟩
    · rcases reaches_of_mem_explore mem with held | ⟨start, waits, path⟩
      · exact absurd (List.mem_singleton.1 held) other
      · exact Relation.TransGen.head' (mem_next.1 waits) path
    · have frontier (a : String) (mem : a ∈ [source]) (b : String) (adj : g.Adj a b) :
          b ∈ [source] ∨ b ∈ g.next source := by
        rw [List.mem_singleton] at mem
        exact Or.inr (mem_next.2 (mem ▸ adj))
      have closed := explore_closed wf frontier
      have start : source ∈ g.explore [source] (g.next source) :=
        mem_explore_of_mem_seen (by simp)
      clear other
      induction reaches with
      | single adj => exact closed _ start _ adj
      | tail _ adj ih => exact closed _ ih _ adj
  · next unknown =>
      refine ⟨fun mem => by simp at mem, fun h => ?_⟩
      exact absurd (h.2.source_mem wf) (by simpa using unknown)

end Graph

end Flowline
