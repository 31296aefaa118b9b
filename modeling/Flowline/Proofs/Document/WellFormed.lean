import Flowline.Proofs.Document.Discipline

/-!
# Documents stay well formed

In a `Workflow.WellFormed` workflow no ids are shared, every node has an id and settings that can
work, and every edge has both of its ends.  A command checks what it adds
(`EditCommand.wellFormed_apply`); undoing and redoing check nothing, and yet no document that was
well formed at first ever ceases to be (`Document.wellFormed_foldl_perform`).
-/

namespace Flowline

namespace Workflow

/-- No ids are shared, no id of a node is blank, both ends of every edge exist, and the settings of
every node can work. -/
structure WellFormed (w : Workflow) : Prop where
  distinct : w.Distinct
  named : ∀ n ∈ w.nodes, trim n.id ≠ ""
  ends : ∀ e ∈ w.edges, e.source ∈ w.nodes.map (·.id) ∧ e.target ∈ w.nodes.map (·.id)
  valid : ∀ n ∈ w.nodes, n.validate = .ok ()

theorem trim_id_ne_of_validate {n : Node} (valid : n.validate = .ok ()) : trim n.id ≠ "" := by
  intro blank
  rw [Node.validate, if_pos blank] at valid
  cases valid

theorem wellFormed_empty : WellFormed {} where
  distinct := ⟨List.nodup_nil, List.nodup_nil⟩
  named _ mem := absurd mem List.not_mem_nil
  ends _ mem := absurd mem List.not_mem_nil
  valid _ mem := absurd mem List.not_mem_nil

theorem wellFormed_erased {w : Workflow} : w.erased.WellFormed ↔ w.WellFormed := by
  have valid_erased (n : Node) : n.erased.validate = n.validate := rfl
  constructor
  · intro wf
    refine ⟨distinct_erased.1 wf.distinct, fun n mem => ?_, fun e mem => ?_, fun n mem => ?_⟩
    · exact wf.named n.erased (List.mem_map_of_mem mem)
    · simpa only [map_id_nodes_erased] using wf.ends e mem
    · exact wf.valid n.erased (List.mem_map_of_mem mem)
  · intro wf
    refine ⟨distinct_erased.2 wf.distinct, fun n mem => ?_, fun e mem => ?_, fun n mem => ?_⟩
    · obtain ⟨m, m_mem, rfl⟩ := List.mem_map.1 mem
      exact wf.named m m_mem
    · simpa only [map_id_nodes_erased] using wf.ends e mem
    · obtain ⟨m, m_mem, rfl⟩ := List.mem_map.1 mem
      rw [valid_erased]
      exact wf.valid m m_mem

theorem mem_ids_of_checkEnds {w : Workflow} {e : Edge} (ends : w.checkEnds e = .ok ()) :
    e.source ∈ w.nodes.map (·.id) ∧ e.target ∈ w.nodes.map (·.id) := by
  have known {id : String} (found : ¬ (w.node? id).isNone = true) : id ∈ w.nodes.map (·.id) := by
    simpa [node?] using found
  unfold checkEnds at ends
  split at ends
  · cases ends
  · next source =>
      split at ends
      · cases ends
      · next target => exact ⟨known source, known target⟩

end Workflow

namespace EditCommand

open Workflow

variable {fresh : String} {w w' : Workflow} {edit : AppliedEdit} {command : EditCommand}

theorem validate_of_checkNode {n : Node} (checked : checkNode n = .ok ()) :
    n.validate = .ok () := by
  unfold checkNode at checked
  cases valid : n.validate with
  | ok _ => rfl
  | error e =>
      rw [valid] at checked
      cases checked

/-- An edit leaves no edge without its ends. -/
theorem ends_apply
    (ends : ∀ e ∈ w.edges, e.source ∈ w.nodes.map (·.id) ∧ e.target ∈ w.nodes.map (·.id))
    (applied : command.apply fresh w = .ok (edit, w')) :
    ∀ e ∈ w'.edges, e.source ∈ w'.nodes.map (·.id) ∧ e.target ∈ w'.nodes.map (·.id) := by
  cases command with
  | addNode node =>
      obtain ⟨-, -, -, rfl⟩ := addNode_eq_ok applied
      have grows : (w.nodes ++ [w.named node]).map (·.id) =
          w.nodes.map (·.id) ++ [(w.named node).id] := List.map_append
      intro e mem
      rw [grows]
      exact ⟨List.mem_append_left _ (ends e mem).1, List.mem_append_left _ (ends e mem).2⟩
  | removeNode id =>
      obtain ⟨before, n, after, nodes, rfl, -, rfl⟩ := removeNode_eq_ok applied
      intro e mem
      obtain ⟨mem, away⟩ := List.mem_filter.1 mem
      have away : e.source ≠ n.id ∧ e.target ≠ n.id := by simpa [Edge.touches] using away
      have stays {id : String} (known : id ∈ w.nodes.map (·.id)) (other : id ≠ n.id) :
          id ∈ (before ++ after).map (·.id) := by
        simpa [nodes, other] using known
      exact ⟨stays (ends e mem).1 away.1, stays (ends e mem).2 away.2⟩
  | moveNode id position =>
      obtain ⟨before, n, after, nodes, -, -, -, rfl⟩ := moveNode_eq_ok applied
      simpa [nodes] using ends
  | updateNode node =>
      obtain ⟨before, n, after, nodes, same, -, -, -, rfl⟩ := updateNode_eq_ok applied
      simpa [nodes, same] using ends
  | addEdge edge =>
      obtain ⟨-, joins, -, rfl⟩ := addEdge_eq_ok applied
      intro e mem
      rcases List.mem_append.1 mem with mem | mem
      · exact ends e mem
      · rw [List.mem_singleton.1 mem]
        exact mem_ids_of_checkEnds joins
  | removeEdge id =>
      obtain ⟨before, e, after, edges, -, -, rfl⟩ := removeEdge_eq_ok applied
      intro d mem
      refine ends d ?_
      rw [edges]
      exact List.mem_append.2 ((List.mem_append.1 mem).imp_right (List.mem_cons_of_mem _))

/-- An edit leaves no node whose settings cannot work. -/
theorem valid_apply (valid : ∀ n ∈ w.nodes, n.validate = .ok ())
    (applied : command.apply fresh w = .ok (edit, w')) :
    ∀ n ∈ w'.nodes, n.validate = .ok () := by
  have others {before after : List Node} {n m : Node} (nodes : w.nodes = before ++ n :: after)
      (new : m.validate = .ok ()) : ∀ l ∈ before ++ m :: after, l.validate = .ok () := by
    intro l mem
    rcases List.mem_append.1 mem with mem | mem
    · exact valid l (by simp [nodes, mem])
    · rcases List.mem_cons.1 mem with rfl | mem
      · exact new
      · exact valid l (by simp [nodes, mem])
  cases command with
  | addNode node =>
      obtain ⟨-, checked, -, rfl⟩ := addNode_eq_ok applied
      intro n mem
      rcases List.mem_append.1 mem with mem | mem
      · exact valid n mem
      · rw [List.mem_singleton.1 mem]
        exact validate_of_checkNode checked
  | removeNode id =>
      obtain ⟨before, n, after, nodes, -, -, rfl⟩ := removeNode_eq_ok applied
      intro m mem
      refine valid m ?_
      rw [nodes]
      exact List.mem_append.2 ((List.mem_append.1 mem).imp_right (List.mem_cons_of_mem _))
  | moveNode id position =>
      obtain ⟨before, n, after, nodes, -, -, -, rfl⟩ := moveNode_eq_ok applied
      exact others (m := { n with position }) nodes (valid n (by simp [nodes]))
  | updateNode node =>
      obtain ⟨before, n, after, nodes, -, -, checked, -, rfl⟩ := updateNode_eq_ok applied
      exact others (m := { node with state := n.state }) nodes (validate_of_checkNode checked)
  | addEdge edge =>
      obtain ⟨-, -, -, rfl⟩ := addEdge_eq_ok applied
      exact valid
  | removeEdge id =>
      obtain ⟨before, e, after, -, -, -, rfl⟩ := removeEdge_eq_ok applied
      exact valid

/-- An edit of a well-formed workflow leaves a well-formed one. -/
theorem wellFormed_apply (wf : w.WellFormed)
    (applied : command.apply fresh w = .ok (edit, w')) : w'.WellFormed where
  distinct := distinct_apply wf.distinct applied
  named n mem := trim_id_ne_of_validate (valid_apply wf.valid applied n mem)
  ends := ends_apply wf.ends applied
  valid := valid_apply wf.valid applied

end EditCommand

/-- **Documents stay well formed.**  Whatever is done to the document of a well-formed workflow,
whether it applies or not, leaves a well-formed workflow. -/
theorem Document.wellFormed_foldl_perform {start : Workflow} (wf : start.WellFormed) (limit : Nat)
    (operations : List Document.Operation) :
    (operations.foldl Document.perform (.ofWorkflow start limit)).workflow.WellFormed := by
  have reversible : AppliedEdit.Reversible Workflow.erased Workflow.WellFormed := by
    refine Workflow.reversible_erased (fun fit => fit.distinct) ?_
    intro command fresh w w' edit fit applied
    have before := Workflow.wellFormed_erased.1 fit
    exact Workflow.wellFormed_erased.2 (EditCommand.wellFormed_apply before applied)
  have kept := Document.fits_foldl_perform reversible (Workflow.wellFormed_erased.2 wf) limit
    operations
  exact Workflow.wellFormed_erased.1 kept

/-- A node and an edge are added and a node with its edges is removed, a run writes into what is
left, and all of it is undone and partly redone, with room for two edits. -/
theorem Document.wellFormed_triangle_edited :
    Workflow.triangle.WellFormed ∧
      (let operations : List Document.Operation :=
          [.apply (.addNode { id := " ", config := .counter {} }),
            .apply (.addEdge { source := "COUNTER_01", target := "a" }),
            .apply (.addEdge { id := "ab", source := "a", target := "b" }),
            .apply (.removeNode "a"), .setNodeState "b" { error := some "boom" },
            .undo, .undo, .undo, .redo]
        let d := operations.foldl Document.perform (.ofWorkflow .triangle 2)
        d.workflow.nodes.length = 4 ∧ d.workflow.edges.length = 4 ∧ d.canRedo = true ∧
          d.workflow.WellFormed) := by
  have wf : Workflow.triangle.WellFormed :=
    ⟨⟨by decide, by decide⟩, by decide, by decide, by decide⟩
  exact ⟨wf, by decide, by decide, by decide, Document.wellFormed_foldl_perform wf 2 _⟩

end Flowline
