import Flowline.Proofs.Document.Discipline

/-!
# Runs and edits do not interfere

A run writes what it leaves at a node past the history, between any two edits, and the edits that
the history remembers hold whole nodes, as runs had left them when the edits were made.

* `Document.answers_filter`: what runs write changes no answer to an edit, and nothing of the
  document but what runs have left.  `Document.erased` is all that edits go by.
* `AppliedEdit.sameStates_undo`, `AppliedEdit.sameStates_redo`: undoing and redoing put no node
  back as a run had left it before.
* `Document.writes_unseen`: both, for all that can be done to a document.
-/

namespace Flowline

/-! ## What edits go by -/

namespace Document

/-- The operation is no write of a run. -/
def Operation.edits : Operation → Bool
  | .setNodeState _ _ => false
  | _ => true

/-- What an editor is answered, without what runs have left. -/
inductive Answer where
  | edited (result : Except EditError AppliedEdit)
  | moved (possible : Bool)

/-- The answer to an operation; a run is not answered. -/
def answer? (d : Document) : Operation → Option Answer
  | .apply command => some (.edited ((d.apply command).map (·.1.erased)))
  | .undo => some (.moved d.undo?.isSome)
  | .redo => some (.moved d.redo?.isSome)
  | .setNodeState _ _ => none

/-- The answers while operations are done one after the other. -/
def answers (d : Document) : List Operation → List Answer
  | [] => []
  | operation :: rest => (d.answer? operation).toList ++ (d.perform operation).answers rest

/-- The document without what runs have left, in the workflow or in the remembered edits. -/
def erased (d : Document) : Document :=
  { d with
    workflow := d.workflow.erased
    history := { d.history with
      undone := d.history.undone.map AppliedEdit.erased
      done := d.history.done.map AppliedEdit.erased } }

end Document

namespace AppliedEdit

@[simp] theorem erased_erased (edit : AppliedEdit) : edit.erased.erased = edit.erased := by
  cases edit <;> rfl

/-- Undoing an edit goes by the erased edit and the erased workflow. -/
theorem erased_undo_erased (edit : AppliedEdit) (w : Workflow) :
    (edit.erased.undo w.erased).erased = (edit.undo w).erased := by
  rw [undo_erased, erased_undo]

/-- Redoing an edit goes by the erased edit and the erased workflow. -/
theorem erased_redo_erased (edit : AppliedEdit) (w : Workflow) :
    (edit.erased.redo w.erased).erased = (edit.redo w).erased := by
  rw [redo_erased, erased_redo]

end AppliedEdit

namespace Document

variable {d d' : Document}

theorem canUndo_erased (d : Document) : d.erased.canUndo = d.canUndo := by
  simp [canUndo, erased]

theorem canRedo_erased (d : Document) : d.erased.canRedo = d.canRedo := by
  simp [canRedo, erased]

theorem isSome_undo? (d : Document) : d.undo?.isSome = d.canUndo := by
  unfold undo? canUndo
  cases d.history.done <;> rfl

theorem isSome_redo? (d : Document) : d.redo?.isSome = d.canRedo := by
  unfold redo? canRedo
  cases d.history.undone <;> rfl

/-- What a command does to a document, without what runs have left, goes by what it does to the
workflow, without what runs have left. -/
theorem map_apply (d : Document) (command : EditCommand) :
    (d.apply command).map (fun r => (r.1.erased, r.2.erased)) =
      ((command.apply (Uuid.ofSerial d.serial).text d.workflow).map
        fun r => (r.1.erased, r.2.erased)).map fun r => (r.1,
          { workflow := r.2
            history := { d.history with
              undone := []
              done := (r.1 :: d.history.done.map AppliedEdit.erased).take d.history.limit }
            serial := d.serial + 1 }) := by
  unfold apply
  cases command.apply (Uuid.ofSerial d.serial).text d.workflow with
  | error e => rfl
  | ok result =>
      have remembered : ((result.1 :: d.history.done).take d.history.limit).map
          AppliedEdit.erased =
            (result.1.erased :: d.history.done.map AppliedEdit.erased).take d.history.limit := by
        rw [List.map_take, List.map_cons]
      exact congrArg (fun done => Except.ok (result.1.erased, Document.mk result.2.erased
        { d.history with undone := [], done } (d.serial + 1))) remembered

/-- A command does the same to the erased document, up to what runs have left. -/
theorem apply_erased (d : Document) (command : EditCommand) :
    (d.erased.apply command).map (fun r => (r.1.erased, r.2.erased)) =
      (d.apply command).map fun r => (r.1.erased, r.2.erased) := by
  have twice : d.erased.history.done.map AppliedEdit.erased =
      d.history.done.map AppliedEdit.erased := by
    simp [erased]
  rw [map_apply, map_apply, twice]
  exact congrArg (Except.map _) (command.erased_apply_edit _ _)

theorem answer?_erased (d : Document) (operation : Operation) :
    d.erased.answer? operation = d.answer? operation := by
  have first (result : Except EditError (AppliedEdit × Document)) :
      (result.map fun r => (r.1.erased, r.2.erased)).map Prod.fst =
        result.map (·.1.erased) := by
    cases result <;> rfl
  cases operation with
  | apply command =>
      have agree := congrArg (Except.map Prod.fst) (d.apply_erased command)
      rw [first, first] at agree
      exact congrArg (some <| Answer.edited ·) agree
  | undo => simp [answer?, isSome_undo?, canUndo_erased]
  | redo => simp [answer?, isSome_redo?, canRedo_erased]
  | setNodeState id state => rfl

/-- What runs write leaves the erased document as it is. -/
theorem erased_setNodeState (d : Document) (id : String) (state : NodeState) :
    (d.perform (.setNodeState id state)).erased = d.erased := by
  simp only [perform, setNodeState?]
  split
  · simp [erased, Workflow.erased_modifyNode_state]
  · rfl

theorem undo?_erased (d : Document) : d.erased.undo?.map erased = d.undo?.map erased := by
  obtain ⟨workflow, ⟨undone, done, limit, limit_pos⟩, serial⟩ := d
  cases done with
  | nil => rfl
  | cons edit rest => simp [undo?, erased, AppliedEdit.erased_undo_erased]

theorem redo?_erased (d : Document) : d.erased.redo?.map erased = d.redo?.map erased := by
  obtain ⟨workflow, ⟨undone, done, limit, limit_pos⟩, serial⟩ := d
  cases undone with
  | nil => rfl
  | cons edit rest => simp [redo?, erased, AppliedEdit.erased_redo_erased]

@[simp] theorem erased_erased (d : Document) : d.erased.erased = d.erased := by
  simp [erased]

/-- Whatever is done to a document is done to the erased one. -/
theorem erased_perform (d : Document) (operation : Operation) :
    (d.erased.perform operation).erased = (d.perform operation).erased := by
  have getD (moved : Option Document) (d : Document) :
      (moved.getD d).erased = (moved.map erased).getD d.erased := by
    cases moved <;> rfl
  cases operation with
  | apply command =>
      have edited (d : Document) : (d.perform (.apply command)).erased =
          (((d.apply command).map fun r => (r.1.erased, r.2.erased)).toOption.map
            Prod.snd).getD d.erased := by
        simp only [perform]
        generalize d.apply command = result
        cases result <;> rfl
      rw [edited, edited, apply_erased, erased_erased]
  | undo =>
      unfold perform
      rw [getD, getD, undo?_erased, erased_erased]
  | redo =>
      unfold perform
      rw [getD, getD, redo?_erased, erased_erased]
  | setNodeState id state => rw [erased_setNodeState, erased_setNodeState, erased_erased]

/-- Without the writes of runs, the edits are answered alike and come to the same, up to what runs
have left. -/
theorem answers_filter (operations : List Operation) (same : d.erased = d'.erased) :
    d.answers operations = d'.answers (operations.filter Operation.edits) ∧
      (operations.foldl perform d).erased =
        ((operations.filter Operation.edits).foldl perform d').erased := by
  induction operations generalizing d d' with
  | nil => exact ⟨rfl, same⟩
  | cons operation rest ih =>
      have answer : d.answer? operation = d'.answer? operation := by
        rw [← answer?_erased, same, answer?_erased]
      have next : (d.perform operation).erased = (d'.perform operation).erased := by
        rw [← erased_perform, same, erased_perform]
      cases operation with
      | setNodeState id state =>
          have unwritten : (d.perform (.setNodeState id state)).erased = d'.erased := by
            rw [erased_setNodeState, same]
          exact ih unwritten
      | apply | undo | redo =>
          obtain ⟨answers, ends⟩ := ih next
          refine ⟨?_, ends⟩
          rw [List.filter_cons_of_pos rfl, Document.answers, Document.answers, answer, answers]

end Document

/-! ## What undoing and redoing put back -/

namespace Workflow

/-- A node that is in both workflows has the same left by runs in both. -/
def SameStates (w w' : Workflow) : Prop :=
  ∀ n ∈ w.nodes, ∀ n' ∈ w'.nodes, n'.id = n.id → n'.state = n.state

variable {w w' : Workflow}

/-- Where each id stands for one node, it is enough that what stays comes from some node with its
id and with what runs have left at it. -/
theorem sameStates_of_origin (distinct : w.nodeIds.Nodup)
    (origin : ∀ n' ∈ w'.nodes, n'.id ∈ w.nodeIds →
      ∃ n ∈ w.nodes, n.id = n'.id ∧ n.state = n'.state) : w.SameStates w' := by
  intro n mem n' mem' same
  obtain ⟨m, m_mem, id_eq, state_eq⟩ := origin n' mem' (same ▸ List.mem_map_of_mem mem)
  have one : m = n := List.inj_on_of_nodup_map distinct m_mem mem (id_eq.trans same)
  rw [← one, state_eq]

theorem sameStates_of_sublist (distinct : w.nodeIds.Nodup) (kept : w'.nodes.Sublist w.nodes) :
    w.SameStates w' :=
  sameStates_of_origin distinct fun n' mem' _ => ⟨n', kept.subset mem', rfl, rfl⟩

theorem mem_modifyFirst {α : Type} {p : α → Bool} {f : α → α} {items : List α} {a : α}
    (mem : a ∈ modifyFirst p f items) : a ∈ items ∨ ∃ b ∈ items, p b = true ∧ a = f b := by
  induction items with
  | nil => exact Or.inl mem
  | cons first rest ih =>
      unfold modifyFirst at mem
      split at mem
      · next hit =>
          rcases List.mem_cons.1 mem with rfl | mem
          · exact Or.inr ⟨first, List.mem_cons_self, hit, rfl⟩
          · exact Or.inl (List.mem_cons_of_mem _ mem)
      · rcases List.mem_cons.1 mem with rfl | mem
        · exact Or.inl List.mem_cons_self
        · rcases ih mem with old | ⟨b, b_mem, hit, changed⟩
          · exact Or.inl (List.mem_cons_of_mem _ old)
          · exact Or.inr ⟨b, List.mem_cons_of_mem _ b_mem, hit, changed⟩

theorem sameStates_modifyNode {id : String} {f : Node → Node} (distinct : w.nodeIds.Nodup)
    (kept : ∀ n : Node, n.id = id → (f n).id = id ∧ (f n).state = n.state) :
    w.SameStates (w.modifyNode id f) := by
  refine sameStates_of_origin distinct fun n' mem' _ => ?_
  rcases mem_modifyFirst mem' with mem | ⟨n, mem, hit, rfl⟩
  · exact ⟨n', mem, rfl, rfl⟩
  · have hit : n.id = id := by simpa using hit
    obtain ⟨id_eq, state_eq⟩ := kept n hit
    exact ⟨n, mem, hit.trans id_eq.symm, state_eq.symm⟩

theorem insertClamped_perm {α : Type} (index : Nat) (a : α) (items : List α) :
    (insertClamped index a items).Perm (a :: items) := by
  have middle : (items.take index ++ a :: items.drop index).Perm
      (a :: (items.take index ++ items.drop index)) := List.perm_middle
  rwa [List.take_append_drop] at middle

/-- A node that is put in was not there, if no id comes to stand for two nodes. -/
theorem sameStates_insert {index : Nat} {node : Node} (distinct : w.nodeIds.Nodup)
    (nodes : w'.nodes = insertClamped index node w.nodes) (distinct' : w'.nodeIds.Nodup) :
    w.SameStates w' := by
  have perm : w'.nodeIds.Perm (node.id :: w.nodeIds) := by
    rw [nodeIds, nodes]
    exact (insertClamped_perm index node w.nodes).map _
  have absent : node.id ∉ w.nodeIds := (List.nodup_cons.1 (perm.nodup_iff.1 distinct')).1
  refine sameStates_of_origin distinct fun n' mem' there => ?_
  rw [nodes, (insertClamped_perm index node w.nodes).mem_iff] at mem'
  rcases List.mem_cons.1 mem' with rfl | mem
  · exact absurd there absent
  · exact ⟨n', mem, rfl, rfl⟩

end Workflow

namespace AppliedEdit

variable {w : Workflow}

open Workflow

theorem sameStates_restore (distinct : w.nodeIds.Nodup) (n : Node) :
    w.SameStates (restore w n) :=
  sameStates_modifyNode distinct fun _ _ => ⟨rfl, rfl⟩

/-- Undoing an edit leaves at every node what runs have left there. -/
theorem sameStates_undo (edit : AppliedEdit) (distinct : w.nodeIds.Nodup)
    (distinct' : (edit.undo w).nodeIds.Nodup) : w.SameStates (edit.undo w) := by
  cases edit with
  | addedNode node index => exact sameStates_of_sublist distinct List.filter_sublist
  | removedNode node index edges => exact sameStates_insert distinct rfl distinct'
  | movedNode id source target => exact sameStates_modifyNode distinct fun _ hit => ⟨hit, rfl⟩
  | updatedNode before after => exact sameStates_restore distinct before
  | addedEdge | removedEdge => exact sameStates_of_sublist distinct (List.Sublist.refl _)

/-- Redoing an edit leaves at every node what runs have left there. -/
theorem sameStates_redo (edit : AppliedEdit) (distinct : w.nodeIds.Nodup)
    (distinct' : (edit.redo w).nodeIds.Nodup) : w.SameStates (edit.redo w) := by
  cases edit with
  | addedNode node index => exact sameStates_insert distinct rfl distinct'
  | removedNode node index edges => exact sameStates_of_sublist distinct List.filter_sublist
  | movedNode id source target => exact sameStates_modifyNode distinct fun _ hit => ⟨hit, rfl⟩
  | updatedNode before after => exact sameStates_restore distinct after
  | addedEdge | removedEdge => exact sameStates_of_sublist distinct (List.Sublist.refl _)

end AppliedEdit

namespace Document

variable {d moved : Document}

theorem sameStates_undo? (distinct : d.workflow.nodeIds.Nodup) (undone : d.undo? = some moved)
    (distinct' : moved.workflow.nodeIds.Nodup) : d.workflow.SameStates moved.workflow := by
  unfold undo? at undone
  split at undone
  · cases undone
  · next edit rest edits =>
      cases undone
      exact edit.sameStates_undo distinct distinct'

theorem sameStates_redo? (distinct : d.workflow.nodeIds.Nodup) (redone : d.redo? = some moved)
    (distinct' : moved.workflow.nodeIds.Nodup) : d.workflow.SameStates moved.workflow := by
  unfold redo? at redone
  split at redone
  · cases redone
  · next edit rest edits =>
      cases redone
      exact edit.sameStates_redo distinct distinct'

/-- **Runs and edits do not interfere.**  Without the writes of runs, every edit, undoing and
redoing is answered as it is with them, the same can be undone and redone in the end, and the
document differs only in what runs have left.  And if no two nodes share an id at first, undoing
and redoing never change what runs have left at a node. -/
theorem writes_unseen (start : Workflow) (limit : Nat) (operations : List Operation) :
    let edits := operations.filter Operation.edits
    let d := operations.foldl perform (.ofWorkflow start limit)
    let unwritten := edits.foldl perform (.ofWorkflow start limit)
    ((ofWorkflow start limit).answers operations = (ofWorkflow start limit).answers edits ∧
      d.canUndo = unwritten.canUndo ∧ d.canRedo = unwritten.canRedo ∧
      d.workflow.erased = unwritten.workflow.erased) ∧
    (start.nodeIds.Nodup → ∀ moved, d.undo? = some moved ∨ d.redo? = some moved →
      d.workflow.SameStates moved.workflow) := by
  intro edits d unwritten
  constructor
  · obtain ⟨answers, ends⟩ := answers_filter (d := ofWorkflow start limit) operations rfl
    refine ⟨answers, ?_, ?_, congrArg workflow ends⟩
    · rw [← canUndo_erased d, ← canUndo_erased unwritten]
      exact congrArg canUndo ends
    · rw [← canRedo_erased d, ← canRedo_erased unwritten]
      exact congrArg canRedo ends
  · intro distinct moved moves
    have reached (operations : List Operation) :=
      fits_foldl_perform Workflow.reversible_nodeIds (w := start) distinct limit operations
    rcases moves with undone | redone
    · have after := reached (operations ++ [.undo])
      rw [List.foldl_append] at after
      have arrived : d.perform .undo = moved := by
        simp [perform, undone]
      exact sameStates_undo? (reached operations) undone (arrived ▸ after)
    · have after := reached (operations ++ [.redo])
      rw [List.foldl_append] at after
      have arrived : d.perform .redo = moved := by
        simp [perform, redone]
      exact sameStates_redo? (reached operations) redone (arrived ▸ after)

/-- A run writes at a node before and after the node gets other settings; undoing that leaves what
was written last. -/
theorem writes_unseen_update :
    Workflow.triangle.nodeIds.Nodup ∧
      (let operations := [Operation.setNodeState "a" { error := some "first" },
          .apply (.updateNode { id := "a", config := .counter { limit := 3 } }),
          .setNodeState "a" { error := some "second" }, .apply (.removeNode "b"),
          .setNodeState "b" {}, .undo]
        let edits := operations.filter Operation.edits
        let d := operations.foldl perform (.ofWorkflow .triangle 5)
        let unwritten := edits.foldl perform (.ofWorkflow .triangle 5)
        edits.length = 3 ∧ d.workflow.erased = unwritten.workflow.erased ∧
          ∃ moved, d.undo? = some moved ∧ d.workflow.SameStates moved.workflow ∧
            (moved.workflow.node? "a").map (·.state.error) = some (some "second")) := by
  have distinct : Workflow.triangle.nodeIds.Nodup := by decide
  have unseen := writes_unseen .triangle 5
  exact ⟨distinct, rfl, (unseen _).1.2.2.2, _, rfl, (unseen _).2 distinct _ (Or.inl rfl), rfl⟩

end Document

end Flowline
