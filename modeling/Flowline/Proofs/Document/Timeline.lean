import Flowline.Proofs.Document.Reversal

/-!
# The document as a timeline of snapshots

A document keeps edits, and moves along them by undoing and redoing.  A `Timeline` is the plain
account of the same: it keeps whole snapshots of the workflow and a cursor among them.  A
successful edit drops every snapshot after the cursor and appends the new one, undo and redo move
the cursor, and only so many steps back are kept.

`Document.Follows` says that a document stands where a timeline does, and every operation keeps
that (`Document.Follows.perform`).  Hence what is edited, undone and redone on a document is what
the timeline shows, whatever runs write into the nodes meanwhile
(`Document.foldl_perform_eq_timeline`).
-/

namespace Flowline

/-- What is done to a document while it is edited. -/
inductive Document.Operation where
  | apply (command : EditCommand)
  | undo
  | redo
  | setNodeState (id : String) (state : NodeState)

/-- Do something to a document.  What does not apply leaves it as it is. -/
def Document.perform (d : Document) : Document.Operation → Document
  | .apply command => match d.apply command with
    | .ok (_, edited) => edited
    | .error _ => d
  | .undo => d.undo?.getD d
  | .redo => d.redo?.getD d
  | .setNodeState id state => (d.setNodeState? id state).getD d

/-- Snapshots of a workflow, the oldest first, and a cursor among them.  `edits` counts the edits
that were made. -/
structure Timeline where
  snapshots : List Workflow
  cursor : Nat := 0
  edits : Nat := 0

namespace Timeline

/-- The timeline of a workflow that nothing was done to. -/
def ofWorkflow (w : Workflow) : Timeline := { snapshots := [w.erased] }

/-- The snapshot under the cursor. -/
def current? (t : Timeline) : Option Workflow := t.snapshots[t.cursor]?

/-- Drop what stands after the cursor, append a snapshot and go there.  At most `limit` snapshots
before it are kept. -/
def push (t : Timeline) (limit : Nat) (w : Workflow) : Timeline :=
  let snapshots := t.snapshots.take (t.cursor + 1) ++ [w]
  let forgotten := snapshots.length - (limit + 1)
  { snapshots := snapshots.drop forgotten
    cursor := snapshots.length - 1 - forgotten
    edits := t.edits + 1 }

/-- One snapshot back, if there is one. -/
def back? (t : Timeline) : Option Timeline :=
  if t.cursor = 0 then none else some { t with cursor := t.cursor - 1 }

/-- One snapshot forward, if there is one. -/
def forward? (t : Timeline) : Option Timeline :=
  if t.cursor + 1 < t.snapshots.length then some { t with cursor := t.cursor + 1 } else none

/-- Do something to the timeline.  What runs leave at the nodes is no part of it. -/
def perform (limit : Nat) (t : Timeline) : Document.Operation → Timeline
  | .apply command =>
    match t.current?.map (command.apply (Uuid.ofSerial t.edits).text) with
    | some (.ok (_, edited)) => t.push limit edited.erased
    | _ => t
  | .undo => t.back?.getD t
  | .redo => t.forward?.getD t
  | .setNodeState _ _ => t

theorem push_eq {t : Timeline} {past future : List Workflow} {present : Workflow} (limit : Nat)
    (w : Workflow) (snapshots : t.snapshots = past.reverse ++ present :: future)
    (cursor : t.cursor = past.length) :
    t.push limit w =
      { snapshots := ((present :: past).take limit).reverse ++ [w]
        cursor := ((present :: past).take limit).length
        edits := t.edits + 1 } := by
  have kept : t.snapshots.take (t.cursor + 1) = (present :: past).reverse := by
    have cut : past.length + 1 = past.reverse.length + 1 := by simp
    rw [snapshots, cursor, cut, List.take_length_add_append]
    simp
  have length : (present :: past).length = past.length + 1 := rfl
  simp only [push, kept, List.length_append, List.length_reverse, length, List.length_singleton,
    List.length_take, mk.injEq, and_true]
  refine ⟨?_, by omega⟩
  rw [List.drop_append_of_le_length (by simp), List.drop_reverse, length]
  by_cases room : past.length + 1 ≤ limit
  · rw [List.take_of_length_le (l := present :: past) (i := limit) (by simpa using room),
      List.take_of_length_le]
    simp only [length]
    omega
  · congr 3
    omega

end Timeline

/-! ## Edits that join snapshots -/

/-- The edit leads from one snapshot to the other, and back. -/
structure AppliedEdit.Joins (edit : AppliedEdit) (v w : Workflow) : Prop where
  undo : (edit.undo w).erased = v
  redo : (edit.redo v).erased = w

theorem AppliedEdit.joins_of_apply {command : EditCommand} {fresh : String} {w w' : Workflow}
    {edit : AppliedEdit} (distinct : w.Distinct)
    (applied : command.apply fresh w = .ok (edit, w')) : edit.Joins w.erased w'.erased := by
  constructor
  · rw [AppliedEdit.erased_undo, EditCommand.undo_apply applied]
  · rw [AppliedEdit.erased_redo, EditCommand.redo_apply distinct applied]

/-- The edits lead one after the other from a workflow through snapshots without shared ids. -/
def Linked (joins : AppliedEdit → Workflow → Workflow → Prop) :
    Workflow → List AppliedEdit → List Workflow → Prop
  | _, [], [] => True
  | w, edit :: edits, v :: rest => joins edit w v ∧ v.Distinct ∧ Linked joins v edits rest
  | _, _, _ => False

namespace Linked

variable {joins : AppliedEdit → Workflow → Workflow → Prop}

theorem length_eq {w : Workflow} {edits : List AppliedEdit} {snapshots : List Workflow}
    (linked : Linked joins w edits snapshots) : edits.length = snapshots.length := by
  induction edits generalizing w snapshots with
  | nil =>
      cases snapshots with
      | nil => rfl
      | cons v rest => cases linked
  | cons edit edits ih =>
      cases snapshots with
      | nil => cases linked
      | cons v rest => simp [ih linked.2.2]

theorem take {w : Workflow} {edits : List AppliedEdit} {snapshots : List Workflow} (n : Nat)
    (linked : Linked joins w edits snapshots) :
    Linked joins w (edits.take n) (snapshots.take n) := by
  induction n generalizing w edits snapshots with
  | zero => simp [Linked]
  | succ n ih =>
      cases edits with
      | nil =>
          cases snapshots with
          | nil => simp [Linked]
          | cons v rest => cases linked
      | cons edit edits =>
          cases snapshots with
          | nil => cases linked
          | cons v rest => exact ⟨linked.1, linked.2.1, ih linked.2.2⟩

end Linked

/-! ## A document that follows a timeline -/

/-- The document stands under the cursor: the edits that can be undone lead back through the
snapshots before it, those that can be redone lead on through the snapshots after it. -/
structure Document.Follows (d : Document) (t : Timeline) (limit : Nat)
    (past future : List Workflow) : Prop where
  snapshots : t.snapshots = past.reverse ++ d.workflow.erased :: future
  cursor : t.cursor = past.length
  edits : t.edits = d.serial
  distinct : d.workflow.Distinct
  back : Linked (fun edit w v => edit.Joins v w) d.workflow.erased d.history.done past
  forth : Linked AppliedEdit.Joins d.workflow.erased d.history.undone future
  limit_eq : d.history.limit = limit
  within : d.history.done.length + d.history.undone.length ≤ limit

namespace Document.Follows

variable {d : Document} {t : Timeline} {limit : Nat} {past future : List Workflow}

theorem current? (follows : d.Follows t limit past future) :
    t.current? = some d.workflow.erased := by
  simp [Timeline.current?, follows.snapshots, follows.cursor]

theorem isSome_back? (follows : d.Follows t limit past future) :
    t.back?.isSome = d.undo?.isSome := by
  have length := follows.back.length_eq
  rw [Timeline.back?, follows.cursor, Document.undo?]
  cases edits : d.history.done with
  | nil => simp_all
  | cons edit rest =>
      have some_past : past.length ≠ 0 := by simp [← length, edits]
      simp [some_past]

theorem isSome_forward? (follows : d.Follows t limit past future) :
    t.forward?.isSome = d.redo?.isSome := by
  have length := follows.forth.length_eq
  rw [Timeline.forward?, follows.cursor, follows.snapshots, Document.redo?]
  cases edits : d.history.undone with
  | nil => simp_all
  | cons edit rest =>
      have some_future : 0 < future.length := by simp [← length, edits]
      simp [some_future]

/-- A successful edit is a new snapshot. -/
theorem apply (follows : d.Follows t limit past future) (command : EditCommand) :
    ∃ past future, (d.perform (.apply command)).Follows
      (t.perform limit (.apply command)) limit past future := by
  have agree := command.erased_apply (Uuid.ofSerial d.serial).text d.workflow
  simp only [Document.perform, Document.apply, Timeline.perform, follows.current?, follows.edits,
    Option.map_some]
  cases applied : command.apply (Uuid.ofSerial d.serial).text d.workflow with
  | error e =>
      rw [applied] at agree
      cases erased : command.apply (Uuid.ofSerial d.serial).text d.workflow.erased with
      | error e' => exact ⟨past, future, follows⟩
      | ok result =>
          rw [erased] at agree
          cases agree
  | ok result =>
      obtain ⟨edit, w'⟩ := result
      rw [applied] at agree
      obtain ⟨⟨edit', v'⟩, erased, same⟩ := map_eq_ok agree
      rw [erased]
      have same : v'.erased = w'.erased := same
      have joins := AppliedEdit.joins_of_apply follows.distinct applied
      have back : Linked (fun edit w v => edit.Joins v w) w'.erased (edit :: d.history.done)
          (d.workflow.erased :: past) :=
        ⟨joins, Workflow.distinct_erased.2 follows.distinct, follows.back⟩
      have pushed := Timeline.push_eq limit w'.erased follows.snapshots follows.cursor
      refine ⟨(d.workflow.erased :: past).take limit, [], ?_⟩
      change Document.Follows
        { workflow := w', history := d.history.record edit, serial := d.serial + 1 }
        (t.push limit v'.erased) limit _ _
      rw [same]
      exact {
        snapshots := congrArg Timeline.snapshots pushed
        cursor := congrArg Timeline.cursor pushed
        edits := by simp [Timeline.push, follows.edits]
        distinct := EditCommand.distinct_apply follows.distinct applied
        back := by simpa [EditHistory.record, follows.limit_eq] using back.take limit
        forth := trivial
        limit_eq := follows.limit_eq
        within := by
          simp only [EditHistory.record, follows.limit_eq, List.length_take, List.length_nil]
          exact Nat.min_le_left _ _ }

/-- Undoing an edit is a step back. -/
theorem undo (follows : d.Follows t limit past future) :
    ∃ past future, (d.perform .undo).Follows (t.perform limit .undo) limit past future := by
  have length := follows.back.length_eq
  have moves := follows.isSome_back?
  simp only [Document.perform, Timeline.perform]
  cases edits : d.history.done with
  | nil =>
      have stays : d.undo? = none := by simp [Document.undo?, edits]
      rw [stays] at moves ⊢
      rw [Option.isSome_eq_false_iff.1 moves |> Option.isNone_iff_eq_none.1]
      exact ⟨past, future, follows⟩
  | cons edit rest =>
      have back := follows.back
      have within := follows.within
      rw [edits] at back within length
      cases past with
      | nil => cases back
      | cons v past =>
          obtain ⟨joins, distinct, back⟩ := back
          have erased : (edit.undo d.workflow).erased = v := by
            rw [← AppliedEdit.erased_undo]
            exact joins.undo
          have cursor := follows.cursor
          rw [List.length_cons] at cursor
          refine ⟨past, d.workflow.erased :: future, ?_⟩
          simp only [Document.undo?, edits, Timeline.back?, cursor, Nat.succ_ne_zero, if_false,
            Option.getD_some]
          exact {
            snapshots := by simp [follows.snapshots, erased]
            cursor := rfl
            edits := follows.edits
            distinct := by
              rw [← Workflow.distinct_erased, erased]
              exact distinct
            back := by
              rw [erased]
              exact back
            forth := by
              rw [erased]
              exact ⟨joins, Workflow.distinct_erased.2 follows.distinct, follows.forth⟩
            limit_eq := follows.limit_eq
            within := by
              simp only [List.length_cons] at within ⊢
              omega }

/-- Redoing an edit is a step forward. -/
theorem redo (follows : d.Follows t limit past future) :
    ∃ past future, (d.perform .redo).Follows (t.perform limit .redo) limit past future := by
  have length := follows.forth.length_eq
  have moves := follows.isSome_forward?
  simp only [Document.perform, Timeline.perform]
  cases edits : d.history.undone with
  | nil =>
      have stays : d.redo? = none := by simp [Document.redo?, edits]
      rw [stays] at moves ⊢
      rw [Option.isSome_eq_false_iff.1 moves |> Option.isNone_iff_eq_none.1]
      exact ⟨past, future, follows⟩
  | cons edit rest =>
      have forth := follows.forth
      have within := follows.within
      rw [edits] at forth within length
      cases future with
      | nil => cases forth
      | cons v future =>
          obtain ⟨joins, distinct, forth⟩ := forth
          have erased : (edit.redo d.workflow).erased = v := by
            rw [← AppliedEdit.erased_redo]
            exact joins.redo
          have room : t.cursor + 1 < t.snapshots.length := by
            simp [follows.cursor, follows.snapshots]
          refine ⟨d.workflow.erased :: past, future, ?_⟩
          simp only [Document.redo?, edits, Timeline.forward?, room, if_true, Option.getD_some]
          exact {
            snapshots := by simp [follows.snapshots, erased]
            cursor := by simp [follows.cursor]
            edits := follows.edits
            distinct := by
              rw [← Workflow.distinct_erased, erased]
              exact distinct
            back := by
              rw [erased]
              exact ⟨joins, Workflow.distinct_erased.2 follows.distinct, follows.back⟩
            forth := by
              rw [erased]
              exact forth
            limit_eq := follows.limit_eq
            within := by
              simp only [List.length_cons] at within ⊢
              omega }

/-- What a run leaves at a node is no part of the timeline. -/
theorem setNodeState (follows : d.Follows t limit past future) (id : String)
    (state : NodeState) :
    (d.perform (.setNodeState id state)).Follows t limit past future := by
  simp only [Document.perform, Document.setNodeState?]
  split
  · have erased := d.workflow.erased_modifyNode_state id state
    exact {
      snapshots := by
        rw [follows.snapshots]
        exact congrArg (past.reverse ++ · :: future) erased.symm
      cursor := follows.cursor
      edits := follows.edits
      distinct := by
        rw [← Workflow.distinct_erased]
        exact erased ▸ Workflow.distinct_erased.2 follows.distinct
      back := erased.symm ▸ follows.back
      forth := erased.symm ▸ follows.forth
      limit_eq := follows.limit_eq
      within := follows.within }
  · exact follows

/-- Whatever is done to a document, it goes on standing where its timeline does. -/
theorem perform (follows : d.Follows t limit past future) (operation : Document.Operation) :
    ∃ past future, (d.perform operation).Follows (t.perform limit operation) limit past future := by
  cases operation with
  | apply command => exact follows.apply command
  | undo => exact follows.undo
  | redo => exact follows.redo
  | setNodeState id state => exact ⟨past, future, follows.setNodeState id state⟩

theorem ofWorkflow {w : Workflow} (distinct : w.Distinct) (limit : Nat) :
    (Document.ofWorkflow w limit).Follows (Timeline.ofWorkflow w) (max limit 1) [] [] where
  snapshots := rfl
  cursor := rfl
  edits := rfl
  distinct := distinct
  back := trivial
  forth := trivial
  limit_eq := rfl
  within := Nat.zero_le _

theorem foldl_perform (operations : List Document.Operation)
    (follows : d.Follows t limit past future) :
    ∃ past future, (operations.foldl Document.perform d).Follows
      (operations.foldl (Timeline.perform limit) t) limit past future := by
  induction operations generalizing d t past future with
  | nil => exact ⟨past, future, follows⟩
  | cons operation rest ih =>
      obtain ⟨past', future', step⟩ := follows.perform operation
      exact ih step

end Document.Follows

/-- **A document is its timeline.**  After any operations on the document of a workflow in which no
two nodes and no two edges share an id, the workflow without what runs have left is the snapshot
under the cursor; undoing and redoing are possible exactly if the cursor can move; and no more
edits are remembered than the limit, at least one, allows. -/
theorem Document.foldl_perform_eq_timeline (start : Workflow) (limit : Nat)
    (distinct : start.Distinct) (operations : List Document.Operation) :
    let d := operations.foldl Document.perform (.ofWorkflow start limit)
    let t := operations.foldl (Timeline.perform (max limit 1)) (.ofWorkflow start)
    t.current? = some d.workflow.erased ∧ d.undo?.isSome = t.back?.isSome ∧
      d.redo?.isSome = t.forward?.isSome ∧
      d.history.done.length + d.history.undone.length ≤ max limit 1 := by
  intro d t
  obtain ⟨past, future, follows⟩ :=
    (Document.Follows.ofWorkflow distinct limit).foldl_perform operations
  exact ⟨follows.current?, follows.isSome_back?.symm, follows.isSome_forward?.symm,
    follows.within⟩

/-- Three nodes with an edge between any two of them. -/
def Workflow.triangle : Workflow where
  nodes := ["a", "b", "c"].map fun id => { id, config := .counter {} }
  edges := [("a", "b"), ("b", "c"), ("a", "c")].map fun e =>
    { id := e.1 ++ e.2, source := e.1, target := e.2 }

/-- Removing a node with its edges and undoing it, with a run that writes into the nodes between. -/
theorem Document.removal_eq_timeline :
    Workflow.triangle.Distinct ∧
      (let operations := [Document.Operation.apply (.removeNode "b"),
          .setNodeState "a" { error := some "boom" }, .undo, .setNodeState "b" { error := none }]
        let d := operations.foldl Document.perform (.ofWorkflow .triangle 0)
        let t := operations.foldl (Timeline.perform (max 0 1)) (.ofWorkflow .triangle)
        d.workflow.edges.length = 3 ∧ d.canRedo = true ∧
          t.current? = some d.workflow.erased ∧ d.undo?.isSome = t.back?.isSome ∧
            d.redo?.isSome = t.forward?.isSome ∧
              d.history.done.length + d.history.undone.length ≤ max 0 1) := by
  have distinct : Workflow.triangle.Distinct := ⟨by decide, by decide⟩
  exact ⟨distinct, by decide, by decide, Document.foldl_perform_eq_timeline .triangle 0 distinct _⟩

end Flowline
