import Flowline.Proofs.Graph.Toposort

/-!
# The descendants of a node

A search along the edges meets each node once at most, and it ends because the nodes it has not met
become fewer, also where edges lead in a circle.

* `Graph.nodup_explore`: what has been met is not met again.
* `Graph.descendants_ofWorkflow`: the descendants of an id of a workflow are the other ids that
  links of the workflow lead to, each once.
-/

namespace Flowline

namespace Graph

variable {g : Graph}

/-- A search keeps what it has seen apart: it only adds nodes that it has not seen. -/
theorem nodup_explore {seen waiting : List String} (distinct : seen.Nodup) :
    (g.explore seen waiting).Nodup := by
  induction seen, waiting using explore.induct g with
  | case1 seen =>
      rw [explore]
      exact distinct
  | case2 seen first rest new _ ih =>
      have unseen : first ∉ seen := by simpa using new.2
      rw [explore, dif_pos new]
      exact ih (List.nodup_cons.2 ⟨unseen, distinct⟩)
  | case3 seen first rest old ih =>
      rw [explore, dif_neg old]
      exact ih distinct

theorem nodup_descendants (g : Graph) (id : String) : (g.descendants id).Nodup := by
  unfold descendants
  split
  · exact (nodup_explore (List.nodup_singleton id)).filter _
  · exact List.nodup_nil

theorem descendants_eq_nil {id : String} (unknown : id ∉ g.ids) : g.descendants id = [] := by
  rw [descendants, if_neg]
  simpa using unknown

/-- **Descendants are what is reached.**  For every workflow, whether its edges lead in a circle or
not, and every id, the descendants are the ids of the workflow other than this one to which one or
more links lead from it, each once.  An id that no node has, has none. -/
theorem descendants_ofWorkflow (w : Workflow) (id : String) :
    (∀ target, target ∈ (ofWorkflow w).descendants id ↔
      w.Names target ∧ target ≠ id ∧ Relation.TransGen w.Links id target) ∧
      ((ofWorkflow w).descendants id).Nodup ∧
      (¬ w.Names id → (ofWorkflow w).descendants id = []) := by
  have wf := wellFormed_ofWorkflow w
  refine ⟨fun target => ?_, nodup_descendants _ id, fun unknown => ?_⟩
  · rw [mem_descendants wf, ← adj_ofWorkflow]
    constructor
    · rintro ⟨other, reaches⟩
      exact ⟨mem_ids_ofWorkflow.1 (Reaches.target_mem wf reaches), other, reaches⟩
    · rintro ⟨-, other, reaches⟩
      exact ⟨other, reaches⟩
  · exact descendants_eq_nil (mt mem_ids_ofWorkflow.1 unknown)

/-- From a node on the circle the other one and what lies behind it are reached, but neither the
node itself nor the id at the end of an edge that no node has, and nothing is reached from that. -/
theorem descendants_eddy :
    let reached := (ofWorkflow .eddy).descendants "a"
    "b" ∈ reached ∧ "down" ∈ reached ∧ "a" ∉ reached ∧ "ghost" ∉ reached ∧ reached.Nodup ∧
      ¬ Workflow.eddy.Names "ghost" ∧ (ofWorkflow .eddy).descendants "ghost" = [] := by
  obtain ⟨members, distinct, -⟩ := descendants_ofWorkflow .eddy "a"
  have a : Workflow.eddy.Names "a" := ⟨by decide, by decide⟩
  have b : Workflow.eddy.Names "b" := ⟨by decide, by decide⟩
  have down : Workflow.eddy.Names "down" := ⟨by decide, by decide⟩
  have no_ghost : ¬ Workflow.eddy.Names "ghost" := fun named => absurd named.2 (by decide)
  have first : Workflow.eddy.Links "a" "b" := ⟨a, b, by decide⟩
  have second : Workflow.eddy.Links "b" "down" := ⟨b, down, by decide⟩
  refine ⟨(members "b").2 ⟨b, by decide, .single first⟩,
    (members "down").2 ⟨down, by decide, .tail (.single first) second⟩,
    fun itself => ((members "a").1 itself).2.1 rfl,
    fun ghost => no_ghost ((members "ghost").1 ghost).1, distinct, no_ghost, ?_⟩
  exact (descendants_ofWorkflow .eddy "ghost").2.2 no_ghost

end Graph

end Flowline
