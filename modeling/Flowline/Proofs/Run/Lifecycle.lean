import Flowline.Proofs.Run.Accepted
import Flowline.Proofs.Run.Actions
import Flowline.Proofs.Run.Traced

/-!
# The life of a run

A run that holds the slot reports that it is running, then everything else, and last one final
status; it holds the slot at all of its contacts with the rest of the program and gives it back
behind the last one (`runsOnce_executeReserved`).  A run that is refused makes no contact and
leaves the world as it is (`execute_of_refusal?`).  All the rest of the program has to do for this
is to leave the slot and the nodes that execute alone (`Host.Respects`).
-/

namespace Flowline

variable {ω : Type}

/-! ## Refusals -/

/-- Why a run is refused, if it is: a run is in progress, or else the graph has a cycle. -/
def World.refusal? (w : World ω) (request : RunRequest) : Option EngineError :=
  if w.engine.slotHeld then some .runInProgress
  else (Graph.ofWorkflow request.workflow).cycleNode?.map .graphCycle

section

variable {h : Host ω} {request : RunRequest} {w : World ω}

theorem cycleNode?_eq_none_iff (workflow : Workflow) :
    (Graph.ofWorkflow workflow).cycleNode? = none ↔ (Graph.ofWorkflow workflow).Acyclic :=
  ⟨Graph.acyclic_of_cycleNode?_eq_none (Graph.wellFormed_ofWorkflow workflow),
    Graph.cycleNode?_eq_none (Graph.wellFormed_ofWorkflow workflow)⟩

theorem World.refusal?_of_held (slot : w.engine.slotHeld = true) (request : RunRequest) :
    w.refusal? request = some .runInProgress := if_pos slot

theorem World.refusal?_cases {e : EngineError} (refused : w.refusal? request = some e) :
    (w.engine.slotHeld = true ∧ e = .runInProgress) ∨
    (w.engine.slotHeld = false ∧
      ∃ id, (Graph.ofWorkflow request.workflow).cycleNode? = some id ∧ e = .graphCycle id) := by
  unfold refusal? at refused
  cases slot : w.engine.slotHeld with
  | true =>
      rw [if_pos slot] at refused
      exact .inl ⟨rfl, (Option.some.inj refused).symm⟩
  | false =>
      rw [if_neg (by simp [slot])] at refused
      obtain ⟨id, cycle, same⟩ := Option.map_eq_some_iff.1 refused
      exact .inr ⟨rfl, id, cycle, same.symm⟩

theorem World.refusal?_eq_none_iff : w.refusal? request = none ↔
    w.engine.slotHeld = false ∧ (Graph.ofWorkflow request.workflow).Acyclic := by
  rw [← cycleNode?_eq_none_iff, refusal?]
  cases w.engine.slotHeld with
  | true => simp
  | false => simp

/-- In its slot a run is only refused because of a cycle, and gives the slot back. -/
theorem executeReserved_of_cycle {id : String}
    (cycle : (Graph.ofWorkflow request.workflow).cycleNode? = some id) :
    executeReserved h request w = (.error (.graphCycle id), w.modifyEngine (·.release)) := by
  unfold executeReserved
  dsimp only
  rw [cycle]

/-- The same world with the slot taken. -/
def World.inSlot (w : World ω) : World ω := w.modifyEngine fun e => { e with slotHeld := true }

/-- Where the slot is free, to run is to take it and to run in it. -/
theorem execute_of_free (free : w.engine.slotHeld = false) :
    execute h request w = executeReserved h request w.inSlot := by
  unfold execute Engine.reserve
  rw [if_neg (by simp [free])]
  rfl

/-- A run that is refused leaves the world as it is. -/
theorem execute_of_refusal? {e : EngineError} (refused : w.refusal? request = some e) :
    execute h request w = (.error e, w) := by
  rcases World.refusal?_cases refused with ⟨slot, rfl⟩ | ⟨free, id, cycle, rfl⟩
  · unfold execute Engine.reserve
    rw [if_pos slot]
  · have freed : w.inSlot.modifyEngine (·.release) = w := by
      change { w with engine := { w.engine with slotHeld := false } } = w
      rw [← free]
    rw [execute_of_free free, executeReserved_of_cycle cycle, freed]

end

/-! ## What the rest of the program leaves alone -/

/-- The slot is held, and the rest of the program has a property. -/
def World.Holds (P : ω → Prop) (w : World ω) : Prop := w.engine.slotHeld = true ∧ P w.outside

/-- A run in the slot goes on in it, and the same nodes execute. -/
def World.Respects (P : ω → Prop) (w w' : World ω) : Prop :=
  w.Holds P → w'.Holds P ∧ w'.engine.state.executing = w.engine.state.executing

/-- Whatever the rest of the program does, a run in the slot goes on. -/
structure Host.Respects (h : Host ω) (P : ω → Prop) : Prop where
  observe : ∀ event w, World.Respects P w (h.observe event w)
  elapse : ∀ time w, World.Respects P w (h.elapse time w)

/-- To ask a run to stop neither frees its slot nor changes its state. -/
theorem Engine.cancel_kept (e : Engine) :
    e.cancel.2.slotHeld = e.slotHeld ∧ e.cancel.2.state = e.state := by
  unfold cancel
  split
  · exact ⟨rfl, rfl⟩
  · exact ⟨rfl, rfl⟩

/-! ## Contacts -/

/-- The status that is reported. -/
def RunEvent.status? : RunEvent → Option RunStatus
  | .status s => some s
  | _ => none

/-- The status that is reported. -/
def Contact.status? (c : Contact ω) : Option RunStatus :=
  match c.what with
  | .report event => event.status?
  | .wait _ => none

/-- The relation holds whenever neither the slot nor the rest of the program changes, and between
the worlds before and after a contact in which no status is reported. -/
structure Host.Contacts (h : Host ω) (R : World ω → World ω → Prop) : Prop where
  trans : ∀ {w₁ w₂ w₃}, R w₁ w₂ → R w₂ w₃ → R w₁ w₃
  quiet : ∀ {w w'}, w'.outside = w.outside → w'.engine.slotHeld = w.engine.slotHeld → R w w'
  observed : ∀ w event, event.status? = none → R w (h.observe event w)
  elapsed : ∀ w time, R w (h.elapse time w)

namespace Host.Contacts

variable {h : Host ω} {R : World ω → World ω → Prop} (contacts : h.Contacts R)
include contacts

theorem begins (w : World ω) (t : Task) : R w (w.begin_ h t) := by
  let marked := w.modifyState (·.mark t.node.id)
  have marks : R w marked := contacts.quiet rfl rfl
  have given (w : World ω) : R w (w.modifyState (·.recordInput t.node.id t.inputValue)) :=
    contacts.quiet rfl rfl
  have works := contacts.trans marks
    (contacts.observed marked (.executing marked.engine.state.executing) rfl)
  exact contacts.trans (contacts.trans works (given _))
    (contacts.observed _ (.input t.node.id t.inputValue) rfl)

theorem ends (w : World ω) (t : Task) (begun : Nat) (outcome : Outcome) :
    R w (w.end_ h t begun outcome).2 := by
  let unmarked := w.modifyState (·.unmark t.node.id)
  have left : R w unmarked := contacts.quiet rfl rfl
  have ended := contacts.trans left
    (contacts.observed unmarked (.executing unmarked.engine.state.executing) rfl)
  unfold World.end_
  dsimp only
  split
  · exact ended
  · exact ended

theorem answers (w : World ω) (treatment : Treatment) : R w (w.answer h treatment) := by
  let asking : World ω := { w with engine := w.engine.cancel.2 }
  have asks : R w asking := contacts.quiet rfl w.engine.cancel_kept.1
  have asked := contacts.trans asks (contacts.observed asking (.cancelled w.engine.cancel.1) rfl)
  have probed (w : World ω) : R w (h.observe (.probed w.engine.probe) w) :=
    contacts.observed w (.probed _) rfl
  unfold World.answer
  cases treatment.cancels <;> cases treatment.probes
  · exact contacts.quiet rfl rfl
  · exact probed w
  · exact asked
  · exact contacts.trans asked (probed _)

theorem output (w : World ω) (id : String) (data : Json) : R w (w.reportOutput h id data) :=
  have recorded : R w (w.modifyState (·.recordOutput id data)) := contacts.quiet rfl rfl
  contacts.trans recorded (contacts.observed _ (.output id data) rfl)

theorem settles (w : World ω) (t : Task) (iteration : Option (String × Nat)) (x : Execution)
    (durationMs : Nat) (bindings : Entries String) :
    R w (w.reportExecution h t iteration x durationMs bindings) := by
  have shown : R w (if x.continues t.node then w.reportOutput h t.node.id x.data else w) := by
    split
    · exact contacts.output w _ _
    · exact contacts.quiet rfl rfl
  have updated (w : World ω) (state : NodeState) : R w (h.observe (.update t.node.id state) w) :=
    contacts.observed w (.update t.node.id state) rfl
  have logged (w : World ω) : R w (w.reportLog h t iteration x durationMs) := by
    have appended (entry : LogEntry) : R w (w.freshId.2.modifyState (·.appendLog entry)) :=
      contacts.quiet rfl rfl
    exact contacts.trans (appended _) (contacts.observed _ (.log _) rfl)
  have bound (w : World ω) : R w (h.observe (.environment bindings) w) :=
    contacts.observed w (.environment bindings) rfl
  unfold World.reportExecution
  dsimp only
  split
  · exact contacts.trans (contacts.trans shown (updated _ _)) (logged _)
  · exact contacts.trans (contacts.trans (contacts.trans shown (updated _ _)) (logged _)) (bound _)

/-- Such a relation holds whatever happens in a run. -/
theorem actions : h.Actions R where
  refl _ := contacts.quiet rfl rfl
  trans := contacts.trans
  begins w t _ := contacts.begins w t
  stores _ _ := contacts.quiet rfl rfl
  calls w call := contacts.observed w (.called call) rfl
  ends := contacts.ends
  answers := contacts.answers
  waits := contacts.elapsed
  settles := contacts.settles
  amends s iterator data :=
    contacts.trans (contacts.output s.world iterator data)
      (contacts.observed _ (.update iterator _) rfl)

end Host.Contacts

/-! ## The graph of a run -/

/-- Between two worlds of a run the slot is kept, and no status is reported. -/
def World.GoesOn (P : ω → Prop) (w w' : World (ω × List (Contact ω))) : Prop :=
  (w.map Prod.fst).Holds P → (w'.map Prod.fst).Holds P ∧ ∃ more, w'.trace = w.trace ++ more ∧
    ∀ c ∈ more, c.status? = none ∧ c.before.Holds P ∧ c.after.Holds P

namespace World.GoesOn

variable {P : ω → Prop} {w w' w'' : World (ω × List (Contact ω))}

theorem trans (first : GoesOn P w w') (second : GoesOn P w' w'') : GoesOn P w w'' := by
  intro holds
  obtain ⟨holds', more, trace, quiet⟩ := first holds
  obtain ⟨holds'', more', trace', quiet'⟩ := second holds'
  refine ⟨holds'', more ++ more', by rw [trace', trace, List.append_assoc], fun c mem => ?_⟩
  exact (List.mem_append.1 mem).elim (quiet c) (quiet' c)

/-- Nobody is in contact with a run that changes the engine but for the slot. -/
theorem quiet (outside : w'.outside = w.outside)
    (slot : w'.engine.slotHeld = w.engine.slotHeld) : GoesOn P w w' := by
  intro holds
  have kept : P w'.outside.1 := outside ▸ holds.2
  have same : w'.trace = w.trace ++ [] := by rw [trace, outside, List.append_nil, trace]
  exact ⟨⟨slot.trans holds.1, kept⟩, [], same, fun _ mem => (List.not_mem_nil mem).elim⟩

theorem contact {what : Passage} {act : World ω → World ω}
    (respects : Respects P (w.map Prod.fst) (act (w.map Prod.fst)))
    (no_status : ∀ event, what = .report event → event.status? = none) :
    GoesOn P w (w.contact what act) := by
  intro holds
  obtain ⟨holds', -⟩ := respects holds
  refine ⟨holds', [⟨what, w.map Prod.fst, act (w.map Prod.fst)⟩], rfl, fun c mem => ?_⟩
  obtain rfl := List.mem_singleton.1 mem
  refine ⟨?_, holds, holds'⟩
  cases what with
  | report event => exact no_status event rfl
  | wait time => rfl

theorem contacts {h : Host ω} (respects : h.Respects P) : h.traced.Contacts (GoesOn P) where
  trans := trans
  quiet := quiet
  observed _ event no_status :=
    contact (respects.observe event _) fun _ same => Passage.report.inj same ▸ no_status
  elapsed _ time := contact (respects.elapse time _) nofun

end World.GoesOn

/-! ## Runs -/

/-- What an accepted run comes to, and its contacts: it reports first that it runs, last one final
status, and no other; at all of its contacts the slot is held and the rest of the program has the
property; behind them the slot is free and no node executes. -/
structure RunsOnce (P : ω → Prop) (ran : Except EngineError RunSummary × World ω)
    (trace : List (Contact ω)) : Prop where
  ends : ∃ summary, ran.1 = .ok summary ∧ summary.status.isTerminal = true ∧
    trace.filterMap Contact.status? = [.running, summary.status] ∧
    trace.head?.bind Contact.status? = some .running ∧
    trace.getLast?.bind Contact.status? = some summary.status
  held : ∀ c ∈ trace, c.before.Holds P ∧ c.after.Holds P
  released : ran.2.engine.slotHeld = false
  idle : ran.2.engine.state.executing = []
  outside : P ran.2.outside

theorem Progress.isTerminal_finalStatus (p : Progress) (cancelled : Bool) :
    (p.finalStatus cancelled).isTerminal = true := by
  unfold finalStatus
  split
  · rfl
  · split
    · rfl
    · rfl

section

variable {h : Host ω} {P : ω → Prop} {request : RunRequest} {w : World ω}

/-- The first contact of a run. -/
theorem exists_contact_running (respects : h.Respects P) (holds : w.Holds P) :
    ∃ first, (w.untraced.running h.traced).trace = [first] ∧ first.status? = some .running ∧
      (first.before.Holds P ∧ first.after.Holds P) ∧
      ((w.untraced.running h.traced).map Prod.fst).Holds P :=
  have ⟨holds', _⟩ := respects.observe (.status .running) ((w.freshId.2.modifyEngine fun e =>
    { e with cancelRequested := false }).modifyState (·.beginRun w.freshId.1 w.freshId.2.instant))
    holds
  ⟨_, rfl, rfl, ⟨holds, holds'⟩, holds'⟩

/-- The last contact of a run, behind which no node executes. -/
theorem exists_contact_changeStatus (respects : h.Respects P) {v : World (ω × List (Contact ω))}
    (holds : (v.map Prod.fst).Holds P) {status : RunStatus} (terminal : status.isTerminal = true) :
    ∃ last, (v.changeStatus h.traced status).trace = v.trace ++ [last] ∧
      last.status? = some status ∧ (last.before.Holds P ∧ last.after.Holds P) ∧
      ((v.changeStatus h.traced status).map Prod.fst).Holds P ∧
      (v.changeStatus h.traced status).engine.state.executing = [] := by
  let ending := (v.map Prod.fst).modifyState (·.setStatus status v.instant)
  have nothing_executes : ending.engine.state.executing = [] := by
    change (ExecutionState.setStatus _ status _).executing = []
    rw [ExecutionState.setStatus, if_pos terminal]
  obtain ⟨holds', executing⟩ := respects.observe (.status status) ending holds
  exact ⟨_, rfl, rfl, ⟨holds, holds'⟩, holds', executing.trans nothing_executes⟩

/-- In the slot that is held for it a run lives its life. -/
theorem runsOnce_executeReserved (respects : h.Respects P) (holds : w.Holds P)
    (acyclic : (Graph.ofWorkflow request.workflow).Acyclic) :
    RunsOnce P (executeReserved h request w)
      (executeReserved h.traced request w.untraced).2.trace := by
  have passes := (cycleNode?_eq_none_iff request.workflow).2 acyclic
  let g := Graph.ofWorkflow request.workflow
  let begun := w.untraced.running h.traced
  let s := runGraph h.traced request g begun
  have terminal : s.finalStatus.isTerminal = true := Progress.isTerminal_finalStatus _ _
  -- the first contact, those of the graph, and the last one
  obtain ⟨first, trace_begun, runs, held_first, holds_begun⟩ :=
    exists_contact_running respects holds
  obtain ⟨holds_inner, inner, trace_inner, quiet⟩ :=
    (World.GoesOn.contacts respects).actions.runGraph request g begun holds_begun
  obtain ⟨last, trace_last, ends, held_last, holds_last, idle⟩ :=
    exists_contact_changeStatus respects holds_inner terminal
  have trace : (executeReserved h.traced request w.untraced).2.trace =
      first :: inner ++ [last] := by
    rw [executeReserved_eq passes]
    exact trace_last.trans (by rw [trace_inner, trace_begun, List.singleton_append])
  have silent : inner.filterMap Contact.status? = [] :=
    List.filterMap_eq_nil_iff.2 fun c mem => (quiet c mem).1
  have statuses : (first :: inner ++ [last]).filterMap Contact.status? =
      [.running, s.finalStatus] := by
    rw [List.filterMap_append, List.filterMap_cons_some runs, silent,
      List.filterMap_cons_some ends]
    rfl
  have ends_last : (first :: inner ++ [last]).getLast?.bind Contact.status? =
      some s.finalStatus := by
    rw [List.getLast?_concat]
    exact ends
  have held : ∀ c ∈ first :: inner ++ [last], c.before.Holds P ∧ c.after.Holds P := by
    intro c mem
    rcases List.mem_append.1 mem with mem | mem
    · rcases List.mem_cons.1 mem with rfl | mem
      · exact held_first
      · exact (quiet c mem).2
    · exact List.mem_singleton.1 mem ▸ held_last
  rw [trace, executeReserved_traced, executeReserved_eq passes]
  exact ⟨⟨_, rfl, terminal, statuses, runs, ends_last⟩, held, rfl, idle, holds_last.2⟩

/-- A run that is not refused takes the slot and lives its life. -/
theorem runsOnce_execute (respects : h.Respects P) (outside : P w.outside)
    (accepted : w.refusal? request = none) :
    RunsOnce P (execute h request w) (execute h.traced request w.untraced).2.trace := by
  obtain ⟨free, acyclic⟩ := World.refusal?_eq_none_iff.1 accepted
  have free_traced : w.untraced.engine.slotHeld = false := free
  have holds : w.inSlot.Holds P := ⟨rfl, outside⟩
  rw [execute_of_free free, execute_of_free free_traced]
  exact runsOnce_executeReserved respects holds acyclic

end

end Flowline
