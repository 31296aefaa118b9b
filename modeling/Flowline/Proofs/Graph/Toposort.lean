import Flowline.Proofs.Graph.Cycle

/-!
# The cycle test of a workflow

An edge of a workflow counts if both of its ends are ids of nodes that are not empty, and
`Workflow.Links` is the relation that these edges make.  `Graph.cycleNode?_ofWorkflow` says of every
workflow, also one in which ids are shared, nodes lack an id or edges lead nowhere, that the test
passes exactly if no node leads back to itself, and names a node that does otherwise.

The test is a topological sort by two searches: the first lists the nodes as it is finished with
them, the second goes against the edges from each of them, the last one first, and meets a second
node only on a cycle.  `Graph.cycleNode?` does without the second search, since it looks no further
than at the predecessors of the node that it starts from (`Graph.cycleNode?_eq_searchTwice`).
-/

namespace Flowline

namespace Graph

variable {g : Graph}

/-! ## The search against the edges -/

/-- The next node that a depth-first search against the edges meets: the top of the stack that it
has not met.  The node is left with its predecessors that were not met on the stack. -/
def meetBackwards? (g : Graph) (met : List String) :
    List String → Option (String × List String × List String)
  | [] => none
  | id :: rest =>
    if met.contains id then g.meetBackwards? met rest
    else
      let sources := (g.incoming id).map (·.2.source)
      some (id, id :: met, sources.filter (!(id :: met).contains ·) ++ rest)

/-- Search from a node and stop at the second node that is met. -/
def searchFrom (g : Graph) (met : List String) (start : String) :
    Except String (List String) :=
  match g.meetBackwards? met [start] with
  | none => .ok met
  | some (_, met, stack) =>
    match g.meetBackwards? met stack with
    | none => .ok met
    | some (second, _, _) => .error second

/-- The node that the topological sort by two searches names. -/
def searchTwice? (g : Graph) : Option String :=
  let start (w : Walk) (id : String) := g.walk w (if w.met.contains id then [] else [id])
  match g.ids.foldlM start {} with
  | .error id => some id
  | .ok w =>
    match w.finished.foldlM g.searchFrom [] with
    | .error id => some id
    | .ok _ => none

/-- From a new node the search meets another one exactly if it lacks a predecessor. -/
theorem searchFrom_eq {met : List String} {id : String} (new : id ∉ met) :
    g.searchFrom met id =
      (g.missingPredecessor? met id).elim (.ok (id :: met)) .error := by
  have unmet : met.contains id = false := by simpa using new
  have first : g.meetBackwards? met [id] = some (id, id :: met,
      ((g.incoming id).map (·.2.source)).filter (!(id :: met).contains ·)) := by
    simp [meetBackwards?, new]
  unfold searchFrom missingPredecessor?
  rw [first, ← List.head?_filter]
  cases missing : ((g.incoming id).map (·.2.source)).filter (!(id :: met).contains ·) with
  | nil => rfl
  | cons source rest =>
      have source_unmet : (id :: met).contains source = false := by
        have mem := List.mem_filter.1 (missing ▸ List.mem_cons_self (a := source) (l := rest))
        simpa using mem.2
      simp only [meetBackwards?, source_unmet, Bool.false_eq_true, if_false]
      rfl

/-- Through nodes that are all new, the searches stop where a predecessor is missing. -/
theorem foldlM_searchFrom {list : List String} (distinct : list.Nodup) :
    ∀ met : List String, (∀ id ∈ list, id ∉ met) →
      list.foldlM g.searchFrom met =
        (g.firstMissing? met list).elim (.ok (list.reverse ++ met)) .error := by
  induction list with
  | nil => exact fun met _ => rfl
  | cons id rest ih =>
      intro met new
      obtain ⟨absent, distinct⟩ := List.nodup_cons.1 distinct
      rw [List.foldlM_cons, searchFrom_eq (new id List.mem_cons_self), firstMissing?]
      cases g.missingPredecessor? met id with
      | some source => rfl
      | none =>
          have new' : ∀ other ∈ rest, other ∉ id :: met := by
            intro other mem again
            rcases List.mem_cons.1 again with rfl | again
            · exact absent mem
            · exact new other (List.mem_cons_of_mem _ mem) again
          rw [List.reverse_cons, List.append_assoc]
          exact ih distinct (id :: met) new'

/-- Looking for a missing predecessor names the node that the second search would name. -/
theorem cycleNode?_eq_searchTwice (wf : g.WellFormed) : g.cycleNode? = g.searchTwice? := by
  unfold cycleNode? searchTwice?
  rcases foldlM_walk_cases wf (fun _ mem => mem) Walk.sound_begun with
    ⟨id, fails, -⟩ | ⟨w, ended, sound, -, -⟩
  · dsimp only at fails ⊢
    rw [fails]
  · dsimp only at ended ⊢
    rw [ended]
    dsimp only
    rw [foldlM_searchFrom sound.distinct [] (by simp)]
    cases g.firstMissing? [] w.finished <;> rfl

/-! ## The edges that count -/

theorem mem_ids_namedNodes {nodes : List Node} {id : String} :
    id ∈ (namedNodes nodes).map (·.id) ↔ id ≠ "" ∧ id ∈ nodes.map (·.id) := by
  have step : ∀ nodes kept : List Node, id ∈ (nodes.foldl
      (fun kept n => if n.id = "" ∨ kept.any (·.id == n.id) then kept else kept ++ [n])
      kept).map (·.id) ↔ id ∈ kept.map (·.id) ∨ (id ≠ "" ∧ id ∈ nodes.map (·.id)) := by
    intro nodes
    induction nodes with
    | nil => simp
    | cons n rest ih =>
        intro kept
        rw [List.foldl_cons, ih, List.map_cons, List.mem_cons]
        split
        · next passed =>
            have here : id = n.id → id ≠ "" → id ∈ kept.map (·.id) := by
              rintro rfl named
              obtain ⟨m, mem, same⟩ := List.any_eq_true.1 (passed.resolve_left named)
              exact List.mem_map.2 ⟨m, mem, by simpa using same⟩
            tauto
        · next new =>
            have named : id = n.id → id ≠ "" := by
              rintro rfl blank
              exact new (Or.inl blank)
            rw [List.map_append, List.mem_append, List.map_singleton, List.mem_singleton]
            tauto
  simpa [namedNodes] using step nodes []

end Graph

namespace Workflow

/-- Some node has the id, which is not empty. -/
def Names (w : Workflow) (id : String) : Prop := id ≠ "" ∧ ∃ n ∈ w.nodes, n.id = id

/-- An edge leads from one id to the other, and nodes have both. -/
def Links (w : Workflow) (source target : String) : Prop :=
  w.Names source ∧ w.Names target ∧ ∃ e ∈ w.edges, e.source = source ∧ e.target = target

end Workflow

namespace Graph

theorem mem_ids_ofWorkflow {w : Workflow} {id : String} :
    id ∈ (ofWorkflow w).ids ↔ w.Names id := by
  rw [Workflow.Names, ← List.mem_map]
  exact mem_ids_namedNodes

theorem mem_edges_ofWorkflow {w : Workflow} {e : Nat × Edge} :
    e ∈ (ofWorkflow w).edges ↔
      w.edges[e.1]? = some e.2 ∧ w.Names e.2.source ∧ w.Names e.2.target := by
  have known (id : String) :
      ((namedNodes w.nodes).any (·.id == id)) = true ↔ w.Names id := by
    rw [← mem_ids_ofWorkflow]
    simp [ids, ofWorkflow]
  have numbered : e ∈ w.edges.zipIdx.map (fun e => (e.2, e.1)) ↔ w.edges[e.1]? = some e.2 := by
    obtain ⟨number, edge⟩ := e
    simp [List.mem_zipIdx_iff_getElem?]
  rw [ofWorkflow, List.mem_filter, numbered, Bool.and_eq_true, known, known]

/-- The graph of a workflow has the links of the workflow. -/
theorem adj_ofWorkflow {w : Workflow} : (ofWorkflow w).Adj = w.Links := by
  funext source target
  refine propext ⟨?_, ?_⟩
  · rintro ⟨e, mem, rfl, rfl⟩
    obtain ⟨edge, source, target⟩ := mem_edges_ofWorkflow.1 mem
    exact ⟨source, target, e.2, List.mem_of_getElem? edge, rfl, rfl⟩
  · rintro ⟨source, target, e, mem, rfl, rfl⟩
    obtain ⟨number, edge⟩ := List.mem_iff_getElem?.1 mem
    exact ⟨(number, e), mem_edges_ofWorkflow.2 ⟨edge, source, target⟩, rfl, rfl⟩

/-- **The cycle test is exact.**  For every workflow, the topological sort by two searches names no
node exactly if no id leads back to itself along links of the workflow, and one that it names
does. -/
theorem cycleNode?_ofWorkflow (w : Workflow) :
    (ofWorkflow w).cycleNode? = (ofWorkflow w).searchTwice? ∧
      ((ofWorkflow w).cycleNode? = none ↔ ¬ ∃ id, Relation.TransGen w.Links id id) ∧
      ∀ id, (ofWorkflow w).cycleNode? = some id → Relation.TransGen w.Links id id := by
  have wf := wellFormed_ofWorkflow w
  refine ⟨cycleNode?_eq_searchTwice wf, ⟨fun passes => ?_, fun acyclic => ?_⟩, fun id named => ?_⟩
  · rintro ⟨id, cycle⟩
    rw [← adj_ofWorkflow] at cycle
    exact acyclic_of_cycleNode?_eq_none wf passes id cycle
  · rw [not_exists, ← adj_ofWorkflow] at acyclic
    exact cycleNode?_eq_none wf acyclic
  · rw [← adj_ofWorkflow]
    exact reaches_of_cycleNode? wf named

end Graph

/-- Two nodes in a circle, one of them listed twice, with a node upstream and one downstream, a node
without an id, and edges that lead nowhere. -/
def Workflow.eddy : Workflow where
  nodes := ["up", "a", "", "b", "a", "down"].map fun id => { id, config := .counter {} }
  edges := [("up", "a"), ("", "a"), ("a", "b"), ("a", "b"), ("b", "down"), ("b", "ghost"),
    ("b", "a")].map fun e => { source := e.1, target := e.2 }

/-- The cycle test names one of the two nodes in the circle. -/
theorem Graph.cycleNode?_eddy :
    ∃ id, (Graph.ofWorkflow .eddy).cycleNode? = some id ∧
      Relation.TransGen Workflow.eddy.Links id id := by
  obtain ⟨-, passes, names⟩ := Graph.cycleNode?_ofWorkflow .eddy
  have a : Workflow.eddy.Names "a" := ⟨by decide, by decide⟩
  have b : Workflow.eddy.Names "b" := ⟨by decide, by decide⟩
  have there : Workflow.eddy.Links "a" "b" := ⟨a, b, by decide⟩
  have back : Workflow.eddy.Links "b" "a" := ⟨b, a, by decide⟩
  cases named : (Graph.ofWorkflow .eddy).cycleNode? with
  | none => exact absurd ⟨"a", .tail (.single there) back⟩ (passes.1 named)
  | some id => exact ⟨id, rfl, names id named⟩

end Flowline
