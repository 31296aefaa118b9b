import Flowline.Document.Basic
import Mathlib.Data.List.InsertIdx

/-!
# Workflows without what runs have left

`Workflow.erased` forgets what runs have left at the nodes.  Edits do not look at it:

* `EditCommand.erased_apply_edit`: a command applies to a workflow exactly if it applies to the
  erased one, and both come to the same edit and the same workflow, once these are erased.
* `AppliedEdit.erased_undo`, `AppliedEdit.erased_redo`: so do undoing and redoing an edit.
-/

namespace Flowline

/-- The node without what runs have left at it. -/
def Node.erased (n : Node) : Node := { n with state := {} }

/-- The workflow without what runs have left at its nodes. -/
def Workflow.erased (w : Workflow) : Workflow := { w with nodes := w.nodes.map Node.erased }

/-- The edit without what runs had left at its nodes. -/
def AppliedEdit.erased : AppliedEdit → AppliedEdit
  | addedNode node index => addedNode node.erased index
  | removedNode node index edges => removedNode node.erased index edges
  | updatedNode before after => updatedNode before.erased after.erased
  | edit => edit

/-- The node under the id that it is added with. -/
def Workflow.named (w : Workflow) (n : Node) : Node :=
  if trim n.id = "" then { n with id := w.nextNodeId n.kind } else n

/-- The edge under the id that it is added with. -/
def Edge.named (fresh : String) (e : Edge) : Edge :=
  if trim e.id = "" then { e with id := e.source ++ "-" ++ e.target ++ "-" ++ fresh } else e

@[simp] theorem Node.id_erased (n : Node) : n.erased.id = n.id := rfl

@[simp] theorem Node.erased_erased (n : Node) : n.erased.erased = n.erased := rfl

namespace Workflow

variable {w : Workflow}

@[simp] theorem edges_erased (w : Workflow) : w.erased.edges = w.edges := rfl

@[simp] theorem nodes_erased (w : Workflow) : w.erased.nodes = w.nodes.map Node.erased := rfl

@[simp] theorem erased_erased (w : Workflow) : w.erased.erased = w.erased := by
  simp [erased, Function.comp_def]

theorem map_id_nodes_erased (w : Workflow) :
    w.erased.nodes.map (·.id) = w.nodes.map (·.id) := by
  simp [Function.comp_def]

@[simp] theorem node?_erased (w : Workflow) (id : String) :
    w.erased.node? id = (w.node? id).map Node.erased := by
  simp [node?, List.find?_map, Function.comp_def]

@[simp] theorem edge?_erased (w : Workflow) (id : String) : w.erased.edge? id = w.edge? id := rfl

@[simp] theorem nextNodeId_erased (w : Workflow) (kind : NodeKind) :
    w.erased.nextNodeId kind = w.nextNodeId kind := by
  simp [nextNodeId, List.filterMap_map, Function.comp_def]

@[simp] theorem named_erased (w : Workflow) (n : Node) : w.erased.named n = w.named n := by
  simp [named]

@[simp] theorem checkEnds_erased (w : Workflow) (e : Edge) :
    w.erased.checkEnds e = w.checkEnds e := by
  simp [checkEnds]

@[simp] theorem locateEdge_erased (w : Workflow) (id : String) :
    w.erased.locateEdge id = w.locateEdge id := rfl

theorem locateNode_erased (w : Workflow) (id : String) :
    w.erased.locateNode id = (w.locateNode id).map fun found => (found.1, found.2.erased) := by
  have place : w.erased.nodes.findIdx? (·.id == id) = w.nodes.findIdx? (·.id == id) := by
    simp [List.findIdx?_map, Function.comp_def]
  unfold locateNode
  rw [place, node?_erased]
  cases w.nodes.findIdx? (·.id == id) with
  | none => rfl
  | some index => cases w.node? id <;> rfl

theorem map_modifyFirst {α β : Type} {p : α → Bool} {q : β → Bool} {f : α → α} {g : β → β}
    {r : α → β} (test : ∀ a, q (r a) = p a) (change : ∀ a, r (f a) = g (r a)) (items : List α) :
    (modifyFirst p f items).map r = modifyFirst q g (items.map r) := by
  induction items with
  | nil => rfl
  | cons a rest ih =>
      simp only [modifyFirst, List.map_cons, test]
      split
      · simp [change]
      · simp [ih]

/-- A change of a node that goes through erasing it. -/
theorem erased_modifyNode {f g : Node → Node} (change : ∀ n, (f n).erased = g n.erased)
    (w : Workflow) (id : String) :
    (w.modifyNode id f).erased = w.erased.modifyNode id g := by
  have nodes := map_modifyFirst (p := (·.id == id)) (q := (·.id == id)) (r := Node.erased)
    (fun _ => rfl) change w.nodes
  simp [erased, modifyNode, nodes]

/-- Changing only what a run has left at a node leaves the erased workflow as it is. -/
theorem erased_modifyNode_state (w : Workflow) (id : String) (state : NodeState) :
    (w.modifyNode id ({ · with state })).erased = w.erased := by
  have same : ∀ nodes : List Node,
      (modifyFirst (·.id == id) ({ · with state }) nodes).map Node.erased =
        nodes.map Node.erased := by
    intro nodes
    induction nodes with
    | nil => rfl
    | cons n rest ih =>
        simp only [modifyFirst]
        split
        · rfl
        · simp [ih]
  simp [erased, modifyNode, same]

end Workflow

/-! ## Commands -/

namespace EditCommand

variable {fresh : String} {w : Workflow}

theorem apply_addNode (node : Node) : (addNode node).apply fresh w =
    if (w.node? (w.named node).id).isSome then .error (.duplicateNode (w.named node).id)
    else (checkNode (w.named node)).map fun _ => (.addedNode (w.named node) w.nodes.length,
      { w with nodes := w.nodes ++ [w.named node] }) := by
  simp only [apply, Workflow.named]
  by_cases blank : trim node.id = ""
  · simp only [if_pos blank]
    split
    · rfl
    · generalize checkNode _ = checked
      cases checked <;> rfl
  · simp only [if_neg blank]
    split
    · rfl
    · generalize checkNode _ = checked
      cases checked <;> rfl

theorem apply_removeNode (id : String) : (removeNode id).apply fresh w =
    (w.locateNode id).map fun found => (.removedNode found.2 found.1
      ((w.edges.zipIdx.filter (·.1.touches id)).map fun e => (e.2, e.1)),
      { w with nodes := w.nodes.eraseIdx found.1, edges := w.edges.filter (!·.touches id) }) :=
  rfl

theorem apply_moveNode (id : String) (position : Position) :
    (moveNode id position).apply fresh w =
    (w.locateNode id).map fun found => (.movedNode id found.2.position position,
      w.modifyNode id ({ · with position })) :=
  rfl

theorem apply_updateNode (node : Node) : (updateNode node).apply fresh w =
    (w.locateNode node.id).bind fun found => (checkNode node).map fun _ =>
      (.updatedNode found.2 { node with state := found.2.state },
        w.modifyNode node.id fun _ => { node with state := found.2.state }) := by
  simp only [apply]
  cases w.locateNode node.id with
  | error e => rfl
  | ok found => cases checkNode node <;> rfl

theorem apply_addEdge (edge : Edge) : (addEdge edge).apply fresh w =
    if (w.edge? (edge.named fresh).id).isSome then .error (.duplicateEdge (edge.named fresh).id)
    else (w.checkEnds (edge.named fresh)).map fun _ =>
      (.addedEdge (edge.named fresh) w.edges.length,
        { w with edges := w.edges ++ [edge.named fresh] }) := by
  simp only [apply, Edge.named]
  by_cases blank : trim edge.id = ""
  · simp only [if_pos blank]
    split <;> rfl
  · simp only [if_neg blank]
    split <;> rfl

theorem apply_removeEdge (id : String) : (removeEdge id).apply fresh w =
    (w.locateEdge id).map fun found => (.removedEdge found.2 found.1,
      { w with edges := w.edges.eraseIdx found.1 }) :=
  rfl

/-- A command applies to a workflow exactly if it applies to the erased one, with the same error
otherwise.  Both leave the same edit and come to the same workflow, once these are erased. -/
theorem erased_apply_edit (command : EditCommand) (fresh : String) (w : Workflow) :
    (command.apply fresh w.erased).map (fun r => (r.1.erased, r.2.erased)) =
      (command.apply fresh w).map fun r => (r.1.erased, r.2.erased) := by
  cases command with
  | addNode node =>
      simp only [apply_addNode, Workflow.named_erased, Workflow.node?_erased, Option.isSome_map]
      split
      · rfl
      · cases checkNode (w.named node) with
        | error e => rfl
        | ok _ => simp [Except.map, Workflow.erased, Function.comp_def]
  | removeNode id =>
      rw [apply_removeNode, apply_removeNode, Workflow.locateNode_erased]
      cases w.locateNode id with
      | error e => rfl
      | ok found =>
          simp [Except.map, AppliedEdit.erased, Workflow.erased, Function.comp_def,
            List.eraseIdx_map]
  | moveNode id position =>
      rw [apply_moveNode, apply_moveNode, Workflow.locateNode_erased]
      cases w.locateNode id with
      | error e => rfl
      | ok found =>
          have change := Workflow.erased_modifyNode (f := ({ · with position }))
            (g := ({ · with position })) (fun _ => rfl)
          have place : found.2.erased.position = found.2.position := rfl
          simp [Except.map, AppliedEdit.erased, change, place]
  | updateNode node =>
      rw [apply_updateNode, apply_updateNode, Workflow.locateNode_erased]
      cases w.locateNode node.id with
      | error e => rfl
      | ok found =>
          cases checkNode node with
          | error e => simp only [Except.map, Except.bind]
          | ok _ =>
              have change (state : NodeState) := Workflow.erased_modifyNode
                (f := fun _ => { node with state }) (g := fun _ => node.erased) (fun _ => rfl)
              simp [Except.map, Except.bind, AppliedEdit.erased, Node.erased, change]
  | addEdge edge =>
      simp only [apply_addEdge, Workflow.edge?_erased, Workflow.checkEnds_erased]
      split
      · rfl
      · cases w.checkEnds (edge.named fresh) with
        | error e => rfl
        | ok _ => simp [Except.map, Workflow.erased, Function.comp_def]
  | removeEdge id =>
      rw [apply_removeEdge, apply_removeEdge, Workflow.locateEdge_erased]
      cases w.locateEdge id with
      | error e => rfl
      | ok found => simp [Except.map, Workflow.erased, Function.comp_def]

/-- A command applies to a workflow exactly if it applies to the erased one, with the same error
otherwise, and both come to the same erased workflow. -/
theorem erased_apply (command : EditCommand) (fresh : String) (w : Workflow) :
    (command.apply fresh w.erased).map (·.2.erased) =
      (command.apply fresh w).map (·.2.erased) := by
  have second (result : Except EditError (AppliedEdit × Workflow)) :
      (result.map fun r => (r.1.erased, r.2.erased)).map Prod.snd = result.map (·.2.erased) := by
    cases result <;> rfl
  have agree := congrArg (Except.map Prod.snd) (command.erased_apply_edit fresh w)
  rwa [second, second] at agree

end EditCommand

/-! ## Undoing and redoing -/

namespace AppliedEdit

open Workflow (insertClamped)

theorem map_insertClamped {α β : Type} (f : α → β) (index : Nat) (a : α) (items : List α) :
    (insertClamped index a items).map f = insertClamped index (f a) (items.map f) := by
  simp [insertClamped, List.map_take, List.map_drop]

theorem erased_restore (w : Workflow) (n : Node) :
    (restore w n).erased = w.erased.modifyNode n.id fun _ => n.erased :=
  Workflow.erased_modifyNode (f := ({ n with state := ·.state })) (g := fun _ => n.erased)
    (fun _ => rfl) w n.id

/-- Undoing an edit does not look at what runs have left. -/
theorem erased_undo (edit : AppliedEdit) (w : Workflow) :
    (edit.undo w.erased).erased = (edit.undo w).erased := by
  cases edit with
  | addedNode node index => simp [undo, Workflow.erased, List.filter_map, Function.comp_def]
  | removedNode node index edges =>
      simp [undo, Workflow.erased, map_insertClamped, Function.comp_def]
  | movedNode id source target =>
      have change := Workflow.erased_modifyNode (f := ({ · with position := source }))
        (g := ({ · with position := source })) (fun _ => rfl)
      simp [undo, change]
  | updatedNode before after => simp [undo, erased_restore]
  | addedEdge edge index => simp [undo, Workflow.erased, Function.comp_def]
  | removedEdge edge index => simp [undo, Workflow.erased, Function.comp_def]

/-- Undoing an edit does not bring back what runs had left. -/
theorem undo_erased (edit : AppliedEdit) (w : Workflow) :
    (edit.erased.undo w).erased = (edit.undo w).erased := by
  cases edit with
  | removedNode node index edges =>
      simp [erased, undo, Workflow.erased, map_insertClamped]
  | updatedNode before after => simp [erased, undo, erased_restore]
  | addedNode | movedNode | addedEdge | removedEdge => rfl

/-- Redoing an edit does not look at what runs have left. -/
theorem erased_redo (edit : AppliedEdit) (w : Workflow) :
    (edit.redo w.erased).erased = (edit.redo w).erased := by
  cases edit with
  | addedNode node index => simp [redo, Workflow.erased, map_insertClamped, Function.comp_def]
  | removedNode node index edges =>
      simp [redo, Workflow.erased, List.filter_map, Function.comp_def]
  | movedNode id source target =>
      have change := Workflow.erased_modifyNode (f := ({ · with position := target }))
        (g := ({ · with position := target })) (fun _ => rfl)
      simp [redo, change]
  | updatedNode before after => simp [redo, erased_restore]
  | addedEdge edge index => simp [redo, Workflow.erased, Function.comp_def]
  | removedEdge edge index => simp [redo, Workflow.erased, Function.comp_def]

/-- Redoing an edit does not bring back what runs had left. -/
theorem redo_erased (edit : AppliedEdit) (w : Workflow) :
    (edit.erased.redo w).erased = (edit.redo w).erased := by
  cases edit with
  | addedNode node index => simp [erased, redo, Workflow.erased, map_insertClamped]
  | updatedNode before after => simp [erased, redo, erased_restore]
  | removedNode | movedNode | addedEdge | removedEdge => rfl

end AppliedEdit

end Flowline
