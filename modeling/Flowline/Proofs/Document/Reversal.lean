import Flowline.Proofs.Document.Erased
import Flowline.Proofs.Except
import Mathlib.Data.List.Nodup

/-!
# Edits can be reversed

Undoing an edit gives back the workflow that it was made in.  Redoing it goes by ids where the edit
went by place: it gives the workflow that the edit came to, unless the edit removed one of several
nodes or edges that share an id.

* `EditCommand.distinct_apply`: an edit keeps the ids apart.
* `EditCommand.undo_apply`, `EditCommand.redo_apply_iff`: the two ways of an edit.
* `Document.redo_undo_apply`: the two ways of an edit of a document.
-/

namespace Flowline

namespace Workflow

/-- No two nodes share an id, and no two edges do. -/
structure Distinct (w : Workflow) : Prop where
  nodes : (w.nodes.map (·.id)).Nodup
  edges : (w.edges.map (·.id)).Nodup

theorem distinct_erased {w : Workflow} : w.erased.Distinct ↔ w.Distinct := by
  constructor
  · intro distinct
    exact ⟨by simpa only [map_id_nodes_erased] using distinct.nodes, distinct.edges⟩
  · intro distinct
    exact ⟨by simpa only [map_id_nodes_erased] using distinct.nodes, distinct.edges⟩

/-! ## The place of an element -/

section

variable {α : Type} {p : α → Bool} {before after : List α} {a : α}

theorem insertClamped_length (a : α) (before after : List α) :
    insertClamped before.length a (before ++ after) = before ++ a :: after := by
  simp [insertClamped]

theorem insertClamped_at_end (a : α) (items : List α) :
    insertClamped items.length a items = items ++ [a] := by
  simp [insertClamped]

theorem modifyFirst_append (f : α → α) (none_before : ∀ b ∈ before, p b = false)
    (found : p a = true) :
    modifyFirst p f (before ++ a :: after) = before ++ f a :: after := by
  induction before with
  | nil => simp [modifyFirst, found]
  | cons b rest ih =>
      have head : p b = false := none_before b (by simp)
      simp [modifyFirst, head, ih fun c mem => none_before c (by simp [mem])]

/-- What `find?` and `findIdx?` find is one element with its place. -/
theorem exists_append_of_find? {items : List α} {index : Nat}
    (place : items.findIdx? p = some index) (found : items.find? p = some a) :
    ∃ before after, items = before ++ a :: after ∧ before.length = index ∧ p a = true ∧
      ∀ b ∈ before, p b = false := by
  obtain ⟨hit, before, after, rfl, miss⟩ := List.find?_eq_some_iff_append.1 found
  have miss' : ∀ b ∈ before, p b = false := fun b mem => by simpa using miss b mem
  refine ⟨before, after, rfl, ?_, hit, miss'⟩
  have none_before : before.findIdx? p = none := by simpa using miss'
  simpa [List.findIdx?_append, none_before, List.findIdx?_cons, hit] using place

/-- Putting back what was taken out, each element at its former place. -/
theorem foldl_insertClamped (p : α → Bool) (items before : List α) :
    (((items.zipIdx before.length).filter (p ·.1)).map fun e => (e.2, e.1)).foldl
      (fun kept e => insertClamped e.1 e.2 kept) (before ++ items.filter (!p ·)) =
        before ++ items := by
  induction items generalizing before with
  | nil => simp
  | cons a rest ih =>
      have step := ih (before ++ [a])
      simp only [List.length_append, List.length_singleton, List.append_assoc,
        List.singleton_append] at step
      by_cases taken : p a
      · simpa [List.zipIdx_cons, taken, insertClamped_length] using step
      · simpa [List.zipIdx_cons, taken] using step

end

theorem locateNode_eq_ok {w : Workflow} {id : String} {index : Nat} {n : Node}
    (located : w.locateNode id = .ok (index, n)) :
    ∃ before after, w.nodes = before ++ n :: after ∧ before.length = index ∧ n.id = id ∧
      ∀ m ∈ before, m.id ≠ id := by
  unfold locateNode at located
  split at located
  · next place found =>
      cases located
      obtain ⟨before, after, nodes, length, hit, miss⟩ := exists_append_of_find? place found
      exact ⟨before, after, nodes, length, by simpa using hit, by simpa using miss⟩
  · cases located

theorem locateEdge_eq_ok {w : Workflow} {id : String} {index : Nat} {e : Edge}
    (located : w.locateEdge id = .ok (index, e)) :
    ∃ before after, w.edges = before ++ e :: after ∧ before.length = index ∧ e.id = id ∧
      ∀ d ∈ before, d.id ≠ id := by
  unfold locateEdge at located
  split at located
  · next place found =>
      cases located
      obtain ⟨before, after, edges, length, hit, miss⟩ := exists_append_of_find? place found
      exact ⟨before, after, edges, length, by simpa using hit, by simpa using miss⟩
  · cases located

/-- Taking everything out that has the id of an element takes out just the element if nothing else
has the id. -/
theorem filter_id_ne_iff {α : Type} {key : α → String} {before after : List α} {a : α} :
    (before ++ a :: after).filter (key · != key a) = before ++ after ↔
      ((before ++ a :: after).map key).count (key a) = 1 := by
  have others : (before ++ a :: after).filter (key · != key a) =
      (before ++ after).filter (key · != key a) := by simp [List.filter_append]
  have counts : ((before ++ a :: after).map key).count (key a) =
      ((before ++ after).map key).count (key a) + 1 := by
    simp only [List.map_append, List.map_cons, List.count_append, List.count_cons_self]
    omega
  rw [others, counts, List.filter_eq_self, Nat.add_eq_right, List.count_eq_zero]
  simp only [bne_iff_ne, ne_eq, List.mem_map, not_exists, not_and]

theorem filter_id_ne_of_fresh {α : Type} {key : α → String} {items : List α} {id : String}
    (fresh : items.find? (key · == id) = none) : items.filter (key · != id) = items := by
  refine List.filter_eq_self.2 fun b mem => ?_
  have differs := List.find?_eq_none.1 fresh b mem
  simpa using differs

end Workflow

/-! ## What a command comes to -/

namespace EditCommand

open Workflow AppliedEdit

variable {fresh : String} {w w' : Workflow} {edit : AppliedEdit} {command : EditCommand}

theorem addNode_eq_ok {node : Node}
    (applied : (addNode node).apply fresh w = .ok (edit, w')) :
    w.node? (w.named node).id = none ∧ checkNode (w.named node) = .ok () ∧
      edit = .addedNode (w.named node) w.nodes.length ∧
      w' = { w with nodes := w.nodes ++ [w.named node] } := by
  rw [apply_addNode] at applied
  split at applied
  · cases applied
  · next free =>
      obtain ⟨_, valid, result⟩ := map_eq_ok applied
      cases result
      exact ⟨by simpa using free, valid, rfl, rfl⟩

theorem removeNode_eq_ok {id : String}
    (applied : (removeNode id).apply fresh w = .ok (edit, w')) :
    ∃ before n after, w.nodes = before ++ n :: after ∧ n.id = id ∧
      edit = .removedNode n before.length
        ((w.edges.zipIdx.filter (·.1.touches id)).map fun e => (e.2, e.1)) ∧
      w' = { w with nodes := before ++ after, edges := w.edges.filter (!·.touches id) } := by
  rw [apply_removeNode] at applied
  obtain ⟨⟨index, n⟩, located, result⟩ := map_eq_ok applied
  obtain ⟨before, after, nodes, rfl, hit, -⟩ := locateNode_eq_ok located
  cases result
  exact ⟨before, n, after, nodes, hit, rfl, by simp [nodes, List.eraseIdx_append]⟩

theorem moveNode_eq_ok {id : String} {position : Position}
    (applied : (moveNode id position).apply fresh w = .ok (edit, w')) :
    ∃ before n after, w.nodes = before ++ n :: after ∧ n.id = id ∧ (∀ m ∈ before, m.id ≠ id) ∧
      edit = .movedNode id n.position position ∧
      w' = { w with nodes := before ++ { n with position } :: after } := by
  rw [apply_moveNode] at applied
  obtain ⟨⟨index, n⟩, located, result⟩ := map_eq_ok applied
  obtain ⟨before, after, nodes, -, hit, miss⟩ := locateNode_eq_ok located
  cases result
  refine ⟨before, n, after, nodes, hit, miss, rfl, ?_⟩
  rw [modifyNode, nodes, modifyFirst_append _ (by simpa using miss) (by simpa using hit)]

theorem updateNode_eq_ok {node : Node}
    (applied : (updateNode node).apply fresh w = .ok (edit, w')) :
    ∃ before n after, w.nodes = before ++ n :: after ∧ n.id = node.id ∧
      (∀ m ∈ before, m.id ≠ node.id) ∧ checkNode node = .ok () ∧
      edit = .updatedNode n { node with state := n.state } ∧
      w' = { w with nodes := before ++ { node with state := n.state } :: after } := by
  rw [apply_updateNode] at applied
  obtain ⟨⟨index, n⟩, located, rest⟩ := bind_eq_ok applied
  obtain ⟨_, valid, result⟩ := map_eq_ok rest
  obtain ⟨before, after, nodes, -, hit, miss⟩ := locateNode_eq_ok located
  cases result
  refine ⟨before, n, after, nodes, hit, miss, valid, rfl, ?_⟩
  rw [modifyNode, nodes, modifyFirst_append _ (by simpa using miss) (by simpa using hit)]

theorem addEdge_eq_ok {edge : Edge}
    (applied : (addEdge edge).apply fresh w = .ok (edit, w')) :
    w.edge? (edge.named fresh).id = none ∧ w.checkEnds (edge.named fresh) = .ok () ∧
      edit = .addedEdge (edge.named fresh) w.edges.length ∧
      w' = { w with edges := w.edges ++ [edge.named fresh] } := by
  rw [apply_addEdge] at applied
  split at applied
  · cases applied
  · next free =>
      obtain ⟨_, ends, result⟩ := map_eq_ok applied
      cases result
      exact ⟨by simpa using free, ends, rfl, rfl⟩

theorem removeEdge_eq_ok {id : String}
    (applied : (removeEdge id).apply fresh w = .ok (edit, w')) :
    ∃ before e after, w.edges = before ++ e :: after ∧ e.id = id ∧
      edit = .removedEdge e before.length ∧ w' = { w with edges := before ++ after } := by
  rw [apply_removeEdge] at applied
  obtain ⟨⟨index, e⟩, located, result⟩ := map_eq_ok applied
  obtain ⟨before, after, edges, rfl, hit, -⟩ := locateEdge_eq_ok located
  cases result
  exact ⟨before, e, after, edges, hit, rfl, by simp [edges, List.eraseIdx_append]⟩

/-- An edit keeps the ids of the nodes apart. -/
theorem nodup_nodes_apply (distinct : (w.nodes.map (·.id)).Nodup)
    (applied : command.apply fresh w = .ok (edit, w')) : (w'.nodes.map (·.id)).Nodup := by
  cases command with
  | addNode node =>
      obtain ⟨free, -, -, rfl⟩ := addNode_eq_ok applied
      have new : (w.named node).id ∉ w.nodes.map (·.id) := by
        simpa [node?, List.find?_eq_none] using free
      simpa [List.nodup_append, distinct] using fun n mem same => new (by
        rw [← same]
        exact List.mem_map_of_mem mem)
  | removeNode id =>
      obtain ⟨before, n, after, nodes, -, -, rfl⟩ := removeNode_eq_ok applied
      rw [nodes] at distinct
      refine distinct.sublist (List.Sublist.map _ ?_)
      simp
  | moveNode id position =>
      obtain ⟨before, n, after, nodes, -, -, -, rfl⟩ := moveNode_eq_ok applied
      simpa [nodes] using distinct
  | updateNode node =>
      obtain ⟨before, n, after, nodes, hit, -, -, -, rfl⟩ := updateNode_eq_ok applied
      simpa [nodes, hit] using distinct
  | addEdge edge =>
      obtain ⟨-, -, -, rfl⟩ := addEdge_eq_ok applied
      exact distinct
  | removeEdge id =>
      obtain ⟨before, e, after, -, -, -, rfl⟩ := removeEdge_eq_ok applied
      exact distinct

/-- An edit keeps the ids of the edges apart. -/
theorem nodup_edges_apply (distinct : (w.edges.map (·.id)).Nodup)
    (applied : command.apply fresh w = .ok (edit, w')) : (w'.edges.map (·.id)).Nodup := by
  cases command with
  | addNode node =>
      obtain ⟨-, -, -, rfl⟩ := addNode_eq_ok applied
      exact distinct
  | removeNode id =>
      obtain ⟨before, n, after, -, -, -, rfl⟩ := removeNode_eq_ok applied
      exact distinct.sublist (List.Sublist.map _ List.filter_sublist)
  | moveNode id position =>
      obtain ⟨before, n, after, -, -, -, -, rfl⟩ := moveNode_eq_ok applied
      exact distinct
  | updateNode node =>
      obtain ⟨before, n, after, -, -, -, -, -, rfl⟩ := updateNode_eq_ok applied
      exact distinct
  | addEdge edge =>
      obtain ⟨free, -, -, rfl⟩ := addEdge_eq_ok applied
      have new : (edge.named fresh).id ∉ w.edges.map (·.id) := by
        simpa [edge?, List.find?_eq_none] using free
      simpa [List.nodup_append, distinct] using fun e mem same => new (by
        rw [← same]
        exact List.mem_map_of_mem mem)
  | removeEdge id =>
      obtain ⟨before, e, after, edges, -, -, rfl⟩ := removeEdge_eq_ok applied
      rw [edges] at distinct
      refine distinct.sublist (List.Sublist.map _ ?_)
      simp

/-- An edit keeps the ids apart. -/
theorem distinct_apply (distinct : w.Distinct)
    (applied : command.apply fresh w = .ok (edit, w')) : w'.Distinct :=
  ⟨nodup_nodes_apply distinct.nodes applied, nodup_edges_apply distinct.edges applied⟩

/-- Undoing an edit gives back the workflow that it was made in. -/
theorem undo_apply (applied : command.apply fresh w = .ok (edit, w')) :
    edit.undo w' = w := by
  cases command with
  | addNode node =>
      obtain ⟨free, -, rfl, rfl⟩ := addNode_eq_ok applied
      have kept := filter_id_ne_of_fresh free
      simp [undo, List.filter_append, kept]
  | removeNode id =>
      obtain ⟨before, n, after, nodes, -, rfl, rfl⟩ := removeNode_eq_ok applied
      have edges := foldl_insertClamped (·.touches id) w.edges []
      simp only [List.length_nil, List.nil_append] at edges
      simp [undo, insertClamped_length, edges, ← nodes]
  | moveNode id position =>
      obtain ⟨before, n, after, nodes, hit, miss, rfl, rfl⟩ := moveNode_eq_ok applied
      rw [undo, modifyNode,
        modifyFirst_append _ (by simpa using miss) (by simpa using hit), ← nodes]
  | updateNode node =>
      obtain ⟨before, n, after, nodes, hit, miss, -, rfl, rfl⟩ := updateNode_eq_ok applied
      rw [undo, restore, modifyNode,
        modifyFirst_append _ (by simpa [hit] using miss) (by simp [hit]), ← nodes]
  | addEdge edge =>
      obtain ⟨free, -, rfl, rfl⟩ := addEdge_eq_ok applied
      have kept := filter_id_ne_of_fresh free
      simp [undo, List.filter_append, kept]
  | removeEdge id =>
      obtain ⟨before, e, after, edges, -, rfl, rfl⟩ := removeEdge_eq_ok applied
      simp [undo, insertClamped_length, ← edges]

/-- What the command removes is the only node, or the only edge, with its id. -/
def NamesOne : EditCommand → Workflow → Prop
  | removeNode named, w => (w.nodes.map (·.id)).count named = 1
  | removeEdge named, w => (w.edges.map (·.id)).count named = 1
  | _, _ => True

/-- Redoing an edit gives the workflow that it came to, unless it removed one of several nodes or
edges that share an id: redoing then takes all of them out. -/
theorem redo_apply_iff (applied : command.apply fresh w = .ok (edit, w')) :
    edit.redo w = w' ↔ command.NamesOne w := by
  cases command with
  | addNode node =>
      obtain ⟨-, -, rfl, rfl⟩ := addNode_eq_ok applied
      simp [redo, insertClamped_at_end, NamesOne]
  | removeNode id =>
      obtain ⟨before, n, after, nodes, hit, rfl, rfl⟩ := removeNode_eq_ok applied
      subst hit
      have whole : redo (.removedNode n before.length
            ((w.edges.zipIdx.filter (·.1.touches n.id)).map fun e => (e.2, e.1))) w =
          { w with nodes := w.nodes.filter (·.id != n.id)
                   edges := w.edges.filter (!·.touches n.id) } := rfl
      rw [whole, Workflow.mk.injEq]
      simp only [true_and, and_true, NamesOne]
      rw [nodes]
      exact filter_id_ne_iff
  | moveNode id position =>
      obtain ⟨before, n, after, nodes, hit, miss, rfl, rfl⟩ := moveNode_eq_ok applied
      rw [redo, modifyNode, nodes,
        modifyFirst_append _ (by simpa using miss) (by simpa using hit)]
      exact iff_of_true rfl trivial
  | updateNode node =>
      obtain ⟨before, n, after, nodes, hit, miss, -, rfl, rfl⟩ := updateNode_eq_ok applied
      rw [redo, restore, modifyNode, nodes,
        modifyFirst_append _ (by simpa using miss) (by simpa using hit)]
      exact iff_of_true rfl trivial
  | addEdge edge =>
      obtain ⟨-, -, rfl, rfl⟩ := addEdge_eq_ok applied
      simp [redo, insertClamped_at_end, NamesOne]
  | removeEdge id =>
      obtain ⟨before, e, after, edges, hit, rfl, rfl⟩ := removeEdge_eq_ok applied
      subst hit
      have whole : redo (.removedEdge e before.length) w =
          { w with edges := w.edges.filter (·.id != e.id) } := rfl
      rw [whole, Workflow.mk.injEq]
      simp only [true_and, NamesOne]
      rw [edges]
      exact filter_id_ne_iff

/-- Where no two nodes share an id, a removed node is the only one with its id. -/
theorem namesOne_removeNode {id : String} (distinct : (w.nodes.map (·.id)).Nodup)
    (applied : (removeNode id).apply fresh w = .ok (edit, w')) : (removeNode id).NamesOne w := by
  obtain ⟨before, n, after, nodes, rfl, -, -⟩ := removeNode_eq_ok applied
  exact List.count_eq_one_of_mem distinct (List.mem_map_of_mem (by simp [nodes]))

/-- Where no two nodes and no two edges share an id, what is removed is the only one with its id. -/
theorem namesOne_of_distinct (distinct : w.Distinct)
    (applied : command.apply fresh w = .ok (edit, w')) : command.NamesOne w := by
  cases command with
  | removeNode id => exact namesOne_removeNode distinct.nodes applied
  | removeEdge id =>
      obtain ⟨before, e, after, edges, rfl, -, -⟩ := removeEdge_eq_ok applied
      exact List.count_eq_one_of_mem distinct.edges (List.mem_map_of_mem (by simp [edges]))
  | addNode | moveNode | updateNode | addEdge => trivial

/-- Redoing an edit gives the workflow that it came to. -/
theorem redo_apply (distinct : w.Distinct)
    (applied : command.apply fresh w = .ok (edit, w')) : edit.redo w = w' :=
  (redo_apply_iff applied).2 (namesOne_of_distinct distinct applied)

end EditCommand

/-- **Undoing and redoing an edit.**  The edit that a command leaves in the history of a document
can be undone, which gives back the workflow exactly, and redone, which gives the workflow that the
command came to exactly if the command removed no node or edge that shared its id. -/
theorem Document.redo_undo_apply {d d' : Document} {command : EditCommand} {edit : AppliedEdit}
    (applied : d.apply command = .ok (edit, d')) :
    edit.undo d'.workflow = d.workflow ∧
      (edit.redo (edit.undo d'.workflow) = d'.workflow ↔ command.NamesOne d.workflow) ∧
      ∃ back again, d'.undo? = some back ∧ back.workflow = edit.undo d'.workflow ∧
        back.redo? = some again ∧ again.workflow = edit.redo back.workflow := by
  obtain ⟨⟨edit', w'⟩, made, result⟩ := bind_eq_ok applied
  cases result
  have undone : edit.undo w' = d.workflow := EditCommand.undo_apply made
  have latest : (d.history.record edit).done = edit :: d.history.done.take (d.history.limit - 1) :=
    List.take_cons d.history.limit_pos
  refine ⟨undone, ?_, ?_⟩
  · rw [undone]
    exact EditCommand.redo_apply_iff made
  · unfold Document.undo?
    dsimp only
    rw [latest]
    exact ⟨_, _, rfl, rfl, rfl, rfl⟩

/-- Two edges between the same nodes that were given no id. -/
def Workflow.twins : Workflow where
  nodes := ["a", "b"].map fun id => { id, config := .counter {} }
  edges := [{ source := "a", target := "b" }, { source := "a", target := "b" }]

/-- A node is the only one with its id, whatever ids its edges have. -/
theorem Document.redo_undo_apply_twins :
    let d := Document.ofWorkflow .twins 1
    ∃ edit d', d.apply (.removeNode "a") = .ok (edit, d') ∧
      edit.undo d'.workflow = d.workflow ∧
      (edit.redo (edit.undo d'.workflow) = d'.workflow ↔
        (EditCommand.removeNode "a").NamesOne d.workflow) ∧
      ∃ back again, d'.undo? = some back ∧ back.workflow = edit.undo d'.workflow ∧
        back.redo? = some again ∧ again.workflow = edit.redo back.workflow := by
  intro d
  have applied : d.apply (.removeNode "a") = .ok (_, _) := rfl
  exact ⟨_, _, applied, Document.redo_undo_apply applied⟩

/-- Of two edges with one id a removal takes the first, and redoing it takes both. -/
theorem AppliedEdit.redo_removes_both :
    (∀ n ∈ Workflow.twins.nodes, n.validate = .ok ()) ∧
      ∃ edit w', (EditCommand.removeEdge "").apply "" .twins = .ok (edit, w') ∧
        edit.undo w' = .twins ∧ w'.edges.length = 1 ∧
        (edit.redo (edit.undo w')).edges = [] ∧ edit.redo (edit.undo w') ≠ w' := by
  refine ⟨by decide, _, _, rfl, rfl, rfl, rfl, fun same => ?_⟩
  have lengths := congrArg (·.edges.length) same
  exact absurd lengths (by decide)

end Flowline
