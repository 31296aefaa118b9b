import Flowline.Proofs.Document.Timeline

/-!
# What edits keep, undoing and redoing keep

Undoing and redoing an edit make none of the checks that the command made.  That they do no harm
rests on the order in which the history gives the edits back: an edit is undone where it has just
been made or redone, and redone where it has just been undone, except for what runs have left
meanwhile.

A view shows a part of a workflow.  `AppliedEdit.Reversible` says that edits go by what the view
shows, and that commands lead from one fit view to another.  Then all that is done to a document
keeps its view fit (`Document.fits_foldl_perform`).

* `Workflow.reversible_erased`: such a view hides only what runs have left, if no ids are shared.
* `Workflow.reversible_nodeIds`: another one shows only the ids of the nodes, if no two share one.
-/

namespace Flowline

section

variable {σ : Type} {view : Workflow → σ} {fits : σ → Prop}

/-- Edits go by what the view shows, in which what runs have left has no part, and every command
leads from a fit view to a fit view, by an edit that can be made again. -/
structure AppliedEdit.Reversible (view : Workflow → σ) (fits : σ → Prop) : Prop where
  undo : ∀ (edit : AppliedEdit) {v w : Workflow}, view v = view w →
    view (edit.undo v) = view (edit.undo w)
  redo : ∀ (edit : AppliedEdit) {v w : Workflow}, view v = view w →
    view (edit.redo v) = view (edit.redo w)
  state : ∀ (w : Workflow) (id : String) (state : NodeState),
    view (w.modifyNode id ({ · with state })) = view w
  apply : ∀ {command : EditCommand} {fresh : String} {w w' : Workflow} {edit : AppliedEdit},
    fits (view w) → command.apply fresh w = .ok (edit, w') →
      fits (view w') ∧ view (edit.redo w) = view w'

/-- The edit leads from any workflow with one view to one with the other, and back. -/
structure AppliedEdit.Spans (view : Workflow → σ) (edit : AppliedEdit) (before after : σ) :
    Prop where
  undo : ∀ w, view w = after → view (edit.undo w) = before
  redo : ∀ w, view w = before → view (edit.redo w) = after

theorem AppliedEdit.Reversible.spans (reversible : Reversible view fits) {command : EditCommand}
    {fresh : String} {w w' : Workflow} {edit : AppliedEdit} (fit : fits (view w))
    (applied : command.apply fresh w = .ok (edit, w')) :
    edit.Spans view (view w) (view w') := by
  constructor
  · intro v same
    rw [reversible.undo edit same, EditCommand.undo_apply applied]
  · intro v same
    rw [reversible.redo edit same]
    exact (reversible.apply fit applied).2

/-- The edits lead one after the other from a view through views that fit. -/
def Leads (joins : AppliedEdit → σ → σ → Prop) (fits : σ → Prop) : σ → List AppliedEdit → Prop
  | _, [] => True
  | here, edit :: rest => ∃ next, joins edit here next ∧ fits next ∧ Leads joins fits next rest

theorem Leads.take {joins : AppliedEdit → σ → σ → Prop} {here : σ} {edits : List AppliedEdit}
    (n : Nat) (leads : Leads joins fits here edits) : Leads joins fits here (edits.take n) := by
  induction n generalizing here edits with
  | zero => trivial
  | succ n ih =>
      cases edits with
      | nil => trivial
      | cons edit rest =>
          obtain ⟨next, joined, fit, leads⟩ := leads
          exact ⟨next, joined, fit, ih leads⟩

/-- The document has a fit view; so has every workflow that its edits lead to, those that can be
undone backwards, those that can be redone forwards. -/
structure Document.Disciplined (view : Workflow → σ) (fits : σ → Prop) (d : Document) : Prop where
  here : fits (view d.workflow)
  back : Leads (fun edit after before => edit.Spans view before after) fits (view d.workflow)
    d.history.done
  forth : Leads (AppliedEdit.Spans view) fits (view d.workflow) d.history.undone

namespace Document.Disciplined

variable {d : Document}

theorem ofWorkflow {w : Workflow} (fit : fits (view w)) (limit : Nat) :
    (Document.ofWorkflow w limit).Disciplined view fits where
  here := fit
  back := trivial
  forth := trivial

theorem apply (reversible : AppliedEdit.Reversible view fits) (kept : d.Disciplined view fits)
    (command : EditCommand) : (d.perform (.apply command)).Disciplined view fits := by
  simp only [Document.perform, Document.apply]
  cases applied : command.apply (Uuid.ofSerial d.serial).text d.workflow with
  | error e => exact kept
  | ok result =>
      obtain ⟨edit, w'⟩ := result
      have spans := reversible.spans kept.here applied
      have back : Leads (fun edit after before => edit.Spans view before after) fits (view w')
          (edit :: d.history.done) := ⟨_, spans, kept.here, kept.back⟩
      exact {
        here := (reversible.apply kept.here applied).1
        back := back.take d.history.limit
        forth := trivial }

theorem undo (kept : d.Disciplined view fits) : (d.perform .undo).Disciplined view fits := by
  have back := kept.back
  simp only [Document.perform, Document.undo?]
  cases edits : d.history.done with
  | nil => exact kept
  | cons edit rest =>
      rw [edits] at back
      obtain ⟨before, spans, fit, back⟩ := back
      have arrived : view (edit.undo d.workflow) = before := spans.undo _ rfl
      exact {
        here := by
          rw [← arrived] at fit
          exact fit
        back := by
          rw [← arrived] at back
          exact back
        forth := by
          rw [← arrived] at spans
          exact ⟨_, spans, kept.here, kept.forth⟩ }

theorem redo (kept : d.Disciplined view fits) : (d.perform .redo).Disciplined view fits := by
  have forth := kept.forth
  simp only [Document.perform, Document.redo?]
  cases edits : d.history.undone with
  | nil => exact kept
  | cons edit rest =>
      rw [edits] at forth
      obtain ⟨after, spans, fit, forth⟩ := forth
      have arrived : view (edit.redo d.workflow) = after := spans.redo _ rfl
      exact {
        here := by
          rw [← arrived] at fit
          exact fit
        back := by
          rw [← arrived] at spans
          exact ⟨_, spans, kept.here, kept.back⟩
        forth := by
          rw [← arrived] at forth
          exact forth }

theorem setNodeState (reversible : AppliedEdit.Reversible view fits)
    (kept : d.Disciplined view fits) (id : String) (state : NodeState) :
    (d.perform (.setNodeState id state)).Disciplined view fits := by
  simp only [Document.perform, Document.setNodeState?]
  split
  · have same := reversible.state d.workflow id state
    exact ⟨same ▸ kept.here, same ▸ kept.back, same ▸ kept.forth⟩
  · exact kept

/-- Whatever is done to a document, its history goes on leading through fit views. -/
theorem perform (reversible : AppliedEdit.Reversible view fits) (kept : d.Disciplined view fits)
    (operation : Document.Operation) : (d.perform operation).Disciplined view fits := by
  cases operation with
  | apply command => exact kept.apply reversible command
  | undo => exact kept.undo
  | redo => exact kept.redo
  | setNodeState id state => exact kept.setNodeState reversible id state

theorem foldl_perform (reversible : AppliedEdit.Reversible view fits)
    (kept : d.Disciplined view fits) (operations : List Document.Operation) :
    (operations.foldl Document.perform d).Disciplined view fits := by
  induction operations generalizing d with
  | nil => exact kept
  | cons operation rest ih => exact ih (kept.perform reversible operation)

end Document.Disciplined

/-- Where edits go by a view and keep it fit, everything that is done to a document does. -/
theorem Document.fits_foldl_perform (reversible : AppliedEdit.Reversible view fits) {w : Workflow}
    (fit : fits (view w)) (limit : Nat) (operations : List Document.Operation) :
    fits (view (operations.foldl Document.perform (.ofWorkflow w limit)).workflow) :=
  ((Document.Disciplined.ofWorkflow fit limit).foldl_perform reversible operations).here

end

/-! ## Views -/

namespace Workflow

/-- A view that hides no more than what runs have left. -/
theorem reversible_erased {fits : Workflow → Prop} (distinct : ∀ {w}, fits w → w.Distinct)
    (apply : ∀ {command : EditCommand} {fresh : String} {w w' : Workflow} {edit : AppliedEdit},
      fits w.erased → command.apply fresh w = .ok (edit, w') → fits w'.erased) :
    AppliedEdit.Reversible erased fits where
  undo edit v w same := by
    rw [← AppliedEdit.erased_undo, same, AppliedEdit.erased_undo]
  redo edit v w same := by
    rw [← AppliedEdit.erased_redo, same, AppliedEdit.erased_redo]
  state := erased_modifyNode_state
  apply {command fresh w w' edit} fit applied := by
    have redone := EditCommand.redo_apply (distinct_erased.1 (distinct fit)) applied
    exact ⟨apply fit applied, congrArg erased redone⟩

/-- The ids of the nodes. -/
def nodeIds (w : Workflow) : List String := w.nodes.map (·.id)

theorem isSome_node?_iff {w : Workflow} {id : String} :
    (w.node? id).isSome = true ↔ id ∈ w.nodeIds := by
  simp [node?, nodeIds]

theorem nodeIds_modifyNode (f : Node → Node) {id : String}
    (same : ∀ n : Node, n.id = id → (f n).id = id) (w : Workflow) :
    (w.modifyNode id f).nodeIds = w.nodeIds := by
  have ids : ∀ nodes : List Node,
      (modifyFirst (·.id == id) f nodes).map (·.id) = nodes.map (·.id) := by
    intro nodes
    induction nodes with
    | nil => rfl
    | cons n rest ih =>
        by_cases hit : n.id = id
        · simp [modifyFirst, hit, same n hit]
        · simp [modifyFirst, hit, ih]
  exact ids w.nodes

theorem nodeIds_restore (w : Workflow) (n : Node) :
    (AppliedEdit.restore w n).nodeIds = w.nodeIds :=
  nodeIds_modifyNode ({ n with state := ·.state }) (fun _ _ => rfl) w

theorem nodeIds_move (w : Workflow) (id : String) (position : Position) :
    (w.modifyNode id ({ · with position })).nodeIds = w.nodeIds :=
  nodeIds_modifyNode ({ · with position }) (fun _ hit => hit) w

theorem nodeIds_undo (edit : AppliedEdit) {v w : Workflow} (same : v.nodeIds = w.nodeIds) :
    (edit.undo v).nodeIds = (edit.undo w).nodeIds := by
  cases edit with
  | addedNode node index =>
      have left (u : Workflow) : (AppliedEdit.undo (.addedNode node index) u).nodeIds =
          u.nodeIds.filter (· != node.id) := by
        simp [AppliedEdit.undo, nodeIds, List.filter_map, Function.comp_def]
      rw [left, left, same]
  | removedNode node index edges =>
      have left (u : Workflow) : (AppliedEdit.undo (.removedNode node index edges) u).nodeIds =
          insertClamped index node.id u.nodeIds :=
        AppliedEdit.map_insertClamped _ index node u.nodes
      rw [left, left, same]
  | movedNode id source target =>
      rw [AppliedEdit.undo, AppliedEdit.undo, nodeIds_move, nodeIds_move, same]
  | updatedNode before after =>
      rw [AppliedEdit.undo, AppliedEdit.undo, nodeIds_restore, nodeIds_restore, same]
  | addedEdge edge index => exact same
  | removedEdge edge index => exact same

theorem nodeIds_redo (edit : AppliedEdit) {v w : Workflow} (same : v.nodeIds = w.nodeIds) :
    (edit.redo v).nodeIds = (edit.redo w).nodeIds := by
  cases edit with
  | addedNode node index =>
      have left (u : Workflow) : (AppliedEdit.redo (.addedNode node index) u).nodeIds =
          insertClamped index node.id u.nodeIds :=
        AppliedEdit.map_insertClamped _ index node u.nodes
      rw [left, left, same]
  | removedNode node index edges =>
      have left (u : Workflow) : (AppliedEdit.redo (.removedNode node index edges) u).nodeIds =
          u.nodeIds.filter (· != node.id) := by
        simp [AppliedEdit.redo, nodeIds, List.filter_map, Function.comp_def]
      rw [left, left, same]
  | movedNode id source target =>
      rw [AppliedEdit.redo, AppliedEdit.redo, nodeIds_move, nodeIds_move, same]
  | updatedNode before after =>
      rw [AppliedEdit.redo, AppliedEdit.redo, nodeIds_restore, nodeIds_restore, same]
  | addedEdge edge index => exact same
  | removedEdge edge index => exact same

/-- A view of the ids of the nodes alone. -/
theorem reversible_nodeIds : AppliedEdit.Reversible nodeIds List.Nodup where
  undo := nodeIds_undo
  redo := nodeIds_redo
  state w id state := nodeIds_modifyNode ({ · with state }) (fun _ hit => hit) w
  apply {command fresh w w' edit} distinct applied := by
    refine ⟨EditCommand.nodup_nodes_apply distinct applied, ?_⟩
    -- edges may share ids, and then redoing the removal of one may remove others too
    cases command with
    | removeEdge id =>
        obtain ⟨before, e, after, -, -, rfl, rfl⟩ := EditCommand.removeEdge_eq_ok applied
        rfl
    | removeNode id =>
        have names := EditCommand.namesOne_removeNode distinct applied
        exact congrArg nodeIds ((EditCommand.redo_apply_iff applied).2 names)
    | addNode | moveNode | updateNode | addEdge =>
        exact congrArg nodeIds ((EditCommand.redo_apply_iff applied).2 trivial)

end Workflow

end Flowline
