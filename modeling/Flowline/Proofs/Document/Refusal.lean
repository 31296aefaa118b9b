import Flowline.Proofs.Document.Discipline

/-!
# Commands that are refused

A command that does not apply leaves no trace.  `InPlace` is work on a document in place, in which
what was written before a failure stays written, and `Document.applyInPlace` makes an edit in this
way: it looks and checks, changes the workflow, and then one stack of the history after the other.
No check stands behind a write, so a failure finds everything as it was.

* `EditCommand.apply_eq_error_iff`: why a command is refused, the first of several reasons.
* `EditCommand.on_applyInPlace`, `Document.on_applyInPlace`: the edit in place is the edit.
* `Document.refusal_leaves_no_trace`: both for every document that can be reached.
-/

namespace Flowline

/-! ## Why a command is refused -/

namespace EditCommand

/-- The command does not apply to the workflow for this reason, and no other is looked at before:
an id that is in use comes before settings that cannot work, the source of an edge before its
target. -/
inductive Refused (fresh : String) (w : Workflow) : EditCommand → EditError → Prop where
  | addTaken {node : Node} (taken : (w.named node).id ∈ w.nodeIds) :
      Refused fresh w (addNode node) (.duplicateNode (w.named node).id)
  | addInvalid {node : Node} {reason : NodeError} (free : (w.named node).id ∉ w.nodeIds)
      (invalid : (w.named node).validate = .error reason) :
      Refused fresh w (addNode node) (.invalidNode (w.named node).id reason)
  | removeAbsent {id : String} (absent : id ∉ w.nodeIds) :
      Refused fresh w (removeNode id) (.nodeNotFound id)
  | moveAbsent {id : String} {position : Position} (absent : id ∉ w.nodeIds) :
      Refused fresh w (moveNode id position) (.nodeNotFound id)
  | updateAbsent {node : Node} (absent : node.id ∉ w.nodeIds) :
      Refused fresh w (updateNode node) (.nodeNotFound node.id)
  | updateInvalid {node : Node} {reason : NodeError} (present : node.id ∈ w.nodeIds)
      (invalid : node.validate = .error reason) :
      Refused fresh w (updateNode node) (.invalidNode node.id reason)
  | linkTaken {edge : Edge} (taken : (edge.named fresh).id ∈ w.edges.map (·.id)) :
      Refused fresh w (addEdge edge) (.duplicateEdge (edge.named fresh).id)
  | sourceAbsent {edge : Edge} (free : (edge.named fresh).id ∉ w.edges.map (·.id))
      (absent : edge.source ∉ w.nodeIds) :
      Refused fresh w (addEdge edge) (.danglingEdge (edge.named fresh).id edge.source)
  | targetAbsent {edge : Edge} (free : (edge.named fresh).id ∉ w.edges.map (·.id))
      (present : edge.source ∈ w.nodeIds) (absent : edge.target ∉ w.nodeIds) :
      Refused fresh w (addEdge edge) (.danglingEdge (edge.named fresh).id edge.target)
  | linkAbsent {id : String} (absent : id ∉ w.edges.map (·.id)) :
      Refused fresh w (removeEdge id) (.edgeNotFound id)

end EditCommand

@[simp] theorem Edge.source_named (fresh : String) (e : Edge) :
    (e.named fresh).source = e.source := by
  unfold named
  split <;> rfl

@[simp] theorem Edge.target_named (fresh : String) (e : Edge) :
    (e.named fresh).target = e.target := by
  unfold named
  split <;> rfl

namespace Workflow

variable {w : Workflow} {id : String} {e : EditError}

theorem isSome_edge?_iff : (w.edge? id).isSome = true ↔ id ∈ w.edges.map (·.id) := by
  simp [edge?]

theorem isSome_findIdx? {α : Type} (p : α → Bool) (items : List α) :
    (items.findIdx? p).isSome = (items.find? p).isSome := by
  rw [List.findIdx?_isSome, List.isSome_find?]

theorem locateNode_eq_error_iff :
    w.locateNode id = .error e ↔ id ∉ w.nodeIds ∧ .nodeNotFound id = e := by
  rw [← isSome_node?_iff]
  unfold locateNode
  cases found : w.node? id with
  | none => simp
  | some node =>
      have place := isSome_findIdx? (·.id == id) w.nodes
      rw [← node?, found] at place
      obtain ⟨index, indexed⟩ := Option.isSome_iff_exists.1 place
      simp [indexed]

theorem exists_locateNode (present : id ∈ w.nodeIds) : ∃ found, w.locateNode id = .ok found := by
  cases located : w.locateNode id with
  | ok found => exact ⟨found, rfl⟩
  | error e => exact absurd present (locateNode_eq_error_iff.1 located).1

theorem locateEdge_eq_error_iff :
    w.locateEdge id = .error e ↔ id ∉ w.edges.map (·.id) ∧ .edgeNotFound id = e := by
  rw [← isSome_edge?_iff]
  unfold locateEdge
  cases found : w.edge? id with
  | none => simp
  | some edge =>
      have place := isSome_findIdx? (·.id == id) w.edges
      rw [← edge?, found] at place
      obtain ⟨index, indexed⟩ := Option.isSome_iff_exists.1 place
      simp [indexed]

/-- A node is changed at the place where it was located. -/
theorem set_eq_modifyNode {index : Nat} {n : Node} (located : w.locateNode id = .ok (index, n))
    (f : Node → Node) :
    { w with nodes := w.nodes.set index (f n) } = w.modifyNode id f := by
  obtain ⟨before, after, nodes, rfl, hit, miss⟩ := locateNode_eq_ok located
  rw [modifyNode, nodes, modifyFirst_append f (by simpa using miss) (by simpa using hit)]
  simp

theorem checkEnds_eq_error_iff {edge : Edge} :
    w.checkEnds edge = .error e ↔
      (edge.source ∉ w.nodeIds ∧ .danglingEdge edge.id edge.source = e) ∨
        edge.source ∈ w.nodeIds ∧ edge.target ∉ w.nodeIds ∧
          .danglingEdge edge.id edge.target = e := by
  have missing (id : String) : (w.node? id).isNone = true ↔ id ∉ w.nodeIds := by
    rw [← isSome_node?_iff, Bool.not_eq_true, Option.isSome_eq_false_iff]
  unfold checkEnds
  by_cases source : edge.source ∈ w.nodeIds
  · rw [if_neg (by simpa [missing] using source)]
    by_cases target : edge.target ∈ w.nodeIds
    · rw [if_neg (by simpa [missing] using target)]
      simp [source, target]
    · rw [if_pos ((missing _).2 target)]
      simp [source, target]
  · rw [if_pos ((missing _).2 source)]
    simp [source]

end Workflow

namespace EditCommand

open Workflow

variable {fresh : String} {w : Workflow} {command : EditCommand} {e : EditError}

theorem checkNode_eq_error_iff {n : Node} :
    checkNode n = .error e ↔
      ∃ reason, n.validate = .error reason ∧ .invalidNode n.id reason = e := by
  unfold checkNode
  cases n.validate <;> simp [Except.mapError]

/-- Each of the reasons keeps the command from applying. -/
theorem Refused.apply_eq (refused : Refused fresh w command e) :
    command.apply fresh w = .error e := by
  cases refused with
  | addTaken taken => rw [apply_addNode, if_pos (isSome_node?_iff.2 taken)]
  | addInvalid free invalid =>
      rw [apply_addNode, if_neg (mt isSome_node?_iff.1 free), map_eq_error_iff,
        checkNode_eq_error_iff]
      exact ⟨_, invalid, rfl⟩
  | removeAbsent absent =>
      rw [apply_removeNode, map_eq_error_iff, locateNode_eq_error_iff]
      exact ⟨absent, rfl⟩
  | moveAbsent absent =>
      rw [apply_moveNode, map_eq_error_iff, locateNode_eq_error_iff]
      exact ⟨absent, rfl⟩
  | updateAbsent absent =>
      rw [apply_updateNode, locateNode_eq_error_iff.2 ⟨absent, rfl⟩]
      rfl
  | updateInvalid present invalid =>
      obtain ⟨found, located⟩ := exists_locateNode present
      rw [apply_updateNode, located]
      exact map_eq_error_iff.2 (checkNode_eq_error_iff.2 ⟨_, invalid, rfl⟩)
  | linkTaken taken => rw [apply_addEdge, if_pos (isSome_edge?_iff.2 taken)]
  | sourceAbsent free absent =>
      rw [apply_addEdge, if_neg (mt isSome_edge?_iff.1 free), map_eq_error_iff,
        checkEnds_eq_error_iff, Edge.source_named]
      exact .inl ⟨absent, rfl⟩
  | targetAbsent free present absent =>
      rw [apply_addEdge, if_neg (mt isSome_edge?_iff.1 free), map_eq_error_iff,
        checkEnds_eq_error_iff, Edge.source_named, Edge.target_named]
      exact .inr ⟨present, absent, rfl⟩
  | linkAbsent absent =>
      rw [apply_removeEdge, map_eq_error_iff, locateEdge_eq_error_iff]
      exact ⟨absent, rfl⟩

/-- A command that does not apply has one of the reasons. -/
theorem refused_of_apply (fails : command.apply fresh w = .error e) :
    Refused fresh w command e := by
  cases command with
  | addNode node =>
      rw [apply_addNode] at fails
      split at fails
      · next taken =>
          cases fails
          exact .addTaken (isSome_node?_iff.1 taken)
      · next free =>
          obtain ⟨reason, invalid, rfl⟩ :=
            checkNode_eq_error_iff.1 (map_eq_error_iff.1 fails)
          exact .addInvalid (mt isSome_node?_iff.2 free) invalid
  | removeNode id =>
      rw [apply_removeNode, map_eq_error_iff, locateNode_eq_error_iff] at fails
      obtain ⟨absent, rfl⟩ := fails
      exact .removeAbsent absent
  | moveNode id position =>
      rw [apply_moveNode, map_eq_error_iff, locateNode_eq_error_iff] at fails
      obtain ⟨absent, rfl⟩ := fails
      exact .moveAbsent absent
  | updateNode node =>
      rw [apply_updateNode] at fails
      by_cases present : node.id ∈ w.nodeIds
      · obtain ⟨found, located⟩ := exists_locateNode present
        rw [located] at fails
        obtain ⟨reason, invalid, rfl⟩ :=
          checkNode_eq_error_iff.1 (map_eq_error_iff.1 fails)
        exact .updateInvalid present invalid
      · rw [locateNode_eq_error_iff.2 ⟨present, rfl⟩] at fails
        cases fails
        exact .updateAbsent present
  | addEdge edge =>
      rw [apply_addEdge] at fails
      split at fails
      · next taken =>
          cases fails
          exact .linkTaken (isSome_edge?_iff.1 taken)
      · next free =>
          have free := mt isSome_edge?_iff.2 free
          rw [map_eq_error_iff, checkEnds_eq_error_iff, Edge.source_named,
            Edge.target_named] at fails
          rcases fails with ⟨absent, rfl⟩ | ⟨present, absent, rfl⟩
          · exact .sourceAbsent free absent
          · exact .targetAbsent free present absent
  | removeEdge id =>
      rw [apply_removeEdge, map_eq_error_iff, locateEdge_eq_error_iff] at fails
      obtain ⟨absent, rfl⟩ := fails
      exact .linkAbsent absent

/-- A command is refused for the first reason that there is, and for no other. -/
theorem apply_eq_error_iff : command.apply fresh w = .error e ↔ Refused fresh w command e :=
  ⟨refused_of_apply, Refused.apply_eq⟩

end EditCommand

/-! ## Edits in place -/

/-- Work on a document in place: what was written before a failure stays written. -/
abbrev InPlace (α : Type) := ExceptT EditError (StateM Document) α

namespace InPlace

/-- What comes of the work, and the document that it leaves. -/
def on {α : Type} (work : InPlace α) (d : Document) : Except EditError α × Document :=
  StateT.run (ExceptT.run work) d

/-- The workflow as it is now. -/
def look : InPlace Workflow := do return (← get).workflow

/-- Go on only if a check is passed. -/
def check {α : Type} (checked : Except EditError α) : InPlace α := liftExcept checked

/-- Change the document. -/
def write (change : Document → Document) : InPlace Unit := modify change

/-- Change the nodes. -/
def writeNodes (change : List Node → List Node) : InPlace Unit :=
  write fun d => { d with workflow := { d.workflow with nodes := change d.workflow.nodes } }

/-- Change the edges. -/
def writeEdges (change : List Edge → List Edge) : InPlace Unit :=
  write fun d => { d with workflow := { d.workflow with edges := change d.workflow.edges } }

variable {α β : Type} {d : Document}

@[simp] theorem on_pure (a : α) : (pure a : InPlace α).on d = (.ok a, d) := rfl

@[simp] theorem on_look (next : Workflow → InPlace β) :
    (look >>= next).on d = (next d.workflow).on d := rfl

@[simp] theorem on_write (change : Document → Document) (next : Unit → InPlace β) :
    (write change >>= next).on d = (next ()).on (change d) := rfl

theorem on_bind (work : InPlace α) (next : α → InPlace β) :
    (work >>= next).on d =
      match work.on d with
      | (.ok a, left) => (next a).on left
      | (.error e, left) => (.error e, left) := by
  change StateT.run (ExceptT.run (work >>= next)) d = _
  rw [ExceptT.run_bind, StateT.run_bind]
  change _ = match StateT.run (ExceptT.run work) d with
      | (.ok a, left) => (next a).on left
      | (.error e, left) => (.error e, left)
  rcases StateT.run (ExceptT.run work) d with ⟨e | a, left⟩ <;> rfl

theorem on_check_ok (a : α) (next : α → InPlace β) :
    (check (.ok a) >>= next).on d = (next a).on d := rfl

/-- A check that fails leaves the document as it is at that point. -/
theorem on_check_error (e : EditError) (next : α → InPlace β) :
    (check (.error e) >>= next).on d = (.error e, d) := rfl

end InPlace

namespace EditCommand

open InPlace

/-- Make the change in place. -/
def applyInPlace (fresh : String) : EditCommand → InPlace AppliedEdit
  | addNode node => do
    let w ← look
    let node := w.named node
    check (if (w.node? node.id).isSome then .error (.duplicateNode node.id) else .ok ())
    check (checkNode node)
    writeNodes (· ++ [node])
    return .addedNode node w.nodes.length
  | removeNode id => do
    let w ← look
    let (index, node) ← check (w.locateNode id)
    writeNodes (·.eraseIdx index)
    let removed := (w.edges.zipIdx.filter (·.1.touches id)).map fun e => (e.2, e.1)
    writeEdges (·.filter (!·.touches id))
    return .removedNode node index removed
  | moveNode id position => do
    let w ← look
    let (index, node) ← check (w.locateNode id)
    writeNodes (·.set index { node with position })
    return .movedNode id node.position position
  | updateNode node => do
    let w ← look
    let (index, before) ← check (w.locateNode node.id)
    check (checkNode node)
    let after := { node with state := before.state }
    writeNodes (·.set index after)
    return .updatedNode before after
  | addEdge edge => do
    let w ← look
    let edge := edge.named fresh
    check (if (w.edge? edge.id).isSome then .error (.duplicateEdge edge.id) else .ok ())
    check (w.checkEnds edge)
    writeEdges (· ++ [edge])
    return .addedEdge edge w.edges.length
  | removeEdge id => do
    let w ← look
    let (index, edge) ← check (w.locateEdge id)
    writeEdges (·.eraseIdx index)
    return .removedEdge edge index

variable {d : Document}

/-- Made in place, a change comes to the same as by itself, and one that is refused leaves the
document as it was. -/
theorem on_applyInPlace (command : EditCommand) (fresh : String) (d : Document) :
    (command.applyInPlace fresh).on d =
      match command.apply fresh d.workflow with
      | .ok (edit, workflow) => (.ok edit, { d with workflow })
      | .error e => (.error e, d) := by
  cases command with
  | addNode node =>
      rw [apply_addNode]
      unfold applyInPlace
      rw [on_look]
      generalize d.workflow.named node = named
      dsimp only
      by_cases taken : (d.workflow.node? named.id).isSome = true
      · rw [if_pos taken, if_pos taken, on_check_error]
      · rw [if_neg taken, if_neg taken, on_check_ok]
        cases checkNode named <;> rfl
  | removeNode id =>
      rw [apply_removeNode]
      unfold applyInPlace
      rw [on_look]
      cases d.workflow.locateNode id <;> rfl
  | moveNode id position =>
      rw [apply_moveNode]
      unfold applyInPlace
      rw [on_look]
      cases located : d.workflow.locateNode id with
      | error e => rfl
      | ok found =>
          rw [on_check_ok]
          have moved := Workflow.set_eq_modifyNode located ({ · with position })
          exact congrArg (fun workflow => (Except.ok _, { d with workflow })) moved
  | updateNode node =>
      rw [apply_updateNode]
      unfold applyInPlace
      rw [on_look]
      cases located : d.workflow.locateNode node.id with
      | error e => rfl
      | ok found =>
          rw [on_check_ok]
          cases checked : checkNode node with
          | error e => rfl
          | ok =>
              rw [on_check_ok]
              have updated := Workflow.set_eq_modifyNode located
                fun _ => { node with state := found.2.state }
              exact congrArg (fun workflow => (Except.ok _, { d with workflow })) updated
  | addEdge edge =>
      rw [apply_addEdge]
      unfold applyInPlace
      rw [on_look]
      generalize edge.named fresh = named
      dsimp only
      by_cases taken : (d.workflow.edge? named.id).isSome = true
      · rw [if_pos taken, if_pos taken, on_check_error]
      · rw [if_neg taken, if_neg taken, on_check_ok]
        cases d.workflow.checkEnds named <;> rfl
  | removeEdge id =>
      rw [apply_removeEdge]
      unfold applyInPlace
      rw [on_look]
      cases d.workflow.locateEdge id <;> rfl

end EditCommand

namespace Document

open InPlace

/-- Make an edit in place: change the workflow, and then forget what was undone, forget the oldest
edit if as many are remembered as can be, and remember this one. -/
def applyInPlace (command : EditCommand) (fresh : String) : InPlace AppliedEdit := do
  let edit ← command.applyInPlace fresh
  write fun d => { d with history := { d.history with undone := [] } }
  write fun d =>
    if d.history.done.length = d.history.limit then
      { d with history := { d.history with done := d.history.done.dropLast } }
    else d
  write fun d => { d with history := { d.history with done := edit :: d.history.done } }
  write fun d => { d with serial := d.serial + 1 }
  return edit

/-- A document that a workflow can become under edits, undoing, redoing, what runs leave at its
nodes, and being replaced. -/
inductive Reached : Document → Prop where
  | start (w : Workflow) (limit : Nat) : Reached (.ofWorkflow w limit)
  | perform {d : Document} (reached : Reached d) (operation : Operation) :
      Reached (d.perform operation)
  | replace {d : Document} (reached : Reached d) (w : Workflow) : Reached (d.replace w)

variable {d : Document}

/-- No more edits can be undone and redone than are remembered. -/
def Within (d : Document) : Prop :=
  d.history.done.length + d.history.undone.length ≤ d.history.limit

theorem Within.perform (within : d.Within) (operation : Operation) :
    (d.perform operation).Within := by
  cases operation with
  | apply command =>
      simp only [Document.perform, Document.apply]
      cases command.apply (Uuid.ofSerial d.serial).text d.workflow with
      | error e => exact within
      | ok result =>
          change (List.take d.history.limit (_ :: d.history.done)).length ≤ d.history.limit
          exact List.length_take_le _ _
  | undo =>
      simp only [Document.perform, Document.undo?]
      cases edits : d.history.done with
      | nil => exact within
      | cons edit rest =>
          simp only [Within, edits, List.length_cons, Option.getD_some] at within ⊢
          omega
  | redo =>
      simp only [Document.perform, Document.redo?]
      cases edits : d.history.undone with
      | nil => exact within
      | cons edit rest =>
          simp only [Within, edits, List.length_cons, Option.getD_some] at within ⊢
          omega
  | setNodeState id state =>
      simp only [Document.perform, Document.setNodeState?]
      split
      · exact within
      · exact within

theorem Reached.within (reached : d.Reached) : d.Within := by
  induction reached with
  | start w limit => exact Nat.zero_le _
  | perform _ operation ih => exact ih.perform operation
  | replace _ w _ => exact Nat.zero_le _

/-- Remembering an edit in place comes to the same, as long as no more than the limit are
remembered. -/
theorem record_eq {h : EditHistory} (within : h.done.length ≤ h.limit) (edit : AppliedEdit) :
    h.record edit =
      { h with
        undone := []
        done := edit :: if h.done.length = h.limit then h.done.dropLast else h.done } := by
  have positive := h.limit_pos
  have kept : (edit :: h.done).take h.limit =
      edit :: if h.done.length = h.limit then h.done.dropLast else h.done := by
    obtain ⟨room, limit⟩ := Nat.exists_eq_add_of_lt positive
    rw [Nat.zero_add] at limit
    split
    · next full =>
        rw [limit, List.take_succ_cons, List.dropLast_eq_take, full, limit, Nat.add_sub_cancel]
    · next free =>
        rw [limit, List.take_succ_cons, List.take_of_length_le (by omega)]
  rw [EditHistory.record, kept]

/-- Made in place, an edit comes to the same as by itself, and one that is refused leaves the
document as it was. -/
theorem on_applyInPlace (within : d.Within) (command : EditCommand) :
    (applyInPlace command (Uuid.ofSerial d.serial).text).on d =
      match d.apply command with
      | .ok (edit, edited) => (.ok edit, edited)
      | .error e => (.error e, d) := by
  have remembered : d.history.done.length ≤ d.history.limit := Nat.le_of_add_right_le within
  unfold applyInPlace
  rw [on_bind, EditCommand.on_applyInPlace, Document.apply]
  cases command.apply (Uuid.ofSerial d.serial).text d.workflow with
  | error e => rfl
  | ok result =>
      obtain ⟨edit, workflow⟩ := result
      have record := record_eq remembered edit
      change _ = (Except.ok edit, Document.mk workflow (d.history.record edit) (d.serial + 1))
      rw [record]
      simp only [on_write, on_pure]
      split <;> rfl

end Document

end Flowline
