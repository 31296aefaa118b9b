import Mathlib
import Flowline.Proofs.Api.Host
import Flowline.Proofs.Run.Accepted
import Flowline.Proofs.Run.Actions
import Flowline.Proofs.Run.Traced

/-!
# Requests to cancel

Anybody can ask for the end of a run while the slot is held, and is told that this was accepted.
What comes of it depends on when it is.  A run begins by forgetting whatever was asked before, so
that a request between taking the slot and the beginning of the run is lost
(`completed_cancelled_beforehand`).  From then on no request is: it stays until the run ends, no
node begins after it, and the run ends as cancelled (`cancel_heeded`).

Everything that others do during a run is in its contacts with them, which a traced host keeps; so
what holds of the trace whatever the host does holds of all interleavings.
-/

namespace Flowline

open Api

variable {ω : Type}

/-! ## Traces that heed a request -/

namespace Contact

/-- The run was asked to stop when the contact was made, -/
def CancelledBefore (c : Contact ω) : Prop := c.before.isCancelled = true

/-- and when it was over. -/
def CancelledAfter (c : Contact ω) : Prop := c.after.isCancelled = true

/-- It shows which nodes are at work, and the run was not asked to stop. -/
def ShowsWork (c : Contact ω) : Prop :=
  (∃ ids, c.what = .report (.executing ids)) ∧ ¬ c.CancelledBefore

/-- It shows what comes into a node, as is done once for each execution when it begins. -/
def ShowsInput (c : Contact ω) : Prop := ∃ id value, c.what = .report (.input id value)

end Contact

/-- The contacts of a part of a run between two moments, at which it was or was not asked to
stop. -/
structure Heeds (asked : Prop) (trace : List (Contact ω)) (asked' : Prop) : Prop where
  /-- A request stays: from before, -/
  before : asked → asked' ∧ ∀ c ∈ trace, c.CancelledBefore
  /-- during a contact, -/
  during : ∀ c ∈ trace, c.CancelledBefore → c.CancelledAfter
  /-- from one contact to the next, -/
  between : trace.Pairwise fun c c' => c.CancelledAfter → c'.CancelledBefore
  /-- and until afterwards. -/
  after : ∀ c ∈ trace, c.CancelledAfter → asked'
  /-- An execution begins with a look at the nodes at work, before any request. -/
  begins : ∀ past c later, trace = past ++ c :: later → c.ShowsInput →
    ∃ earlier d, past = earlier ++ [d] ∧ d.ShowsWork

namespace Heeds

variable {asked asked' asked'' : Prop} {trace more : List (Contact ω)}

theorem nil (stays : asked → asked') : Heeds asked ([] : List (Contact ω)) asked' :=
  ⟨fun h => ⟨stays h, by simp⟩, by simp, .nil, by simp, by simp⟩

/-- A contact in which no input is shown. -/
theorem single {c : Contact ω} (before : asked → c.CancelledBefore)
    (during : c.CancelledBefore → c.CancelledAfter) (other : ¬ c.ShowsInput) :
    Heeds asked [c] c.CancelledAfter where
  before h := ⟨during (before h), by simpa using before h⟩
  during := by simpa using during
  between := List.pairwise_singleton _ _
  after := by simp
  begins past d later split shows := by
    have mem : d ∈ [c] := split ▸ List.mem_append_right _ List.mem_cons_self
    exact absurd (List.mem_singleton.1 mem ▸ shows) other

theorem append (first : Heeds asked trace asked') (second : Heeds asked' more asked'') :
    Heeds asked (trace ++ more) asked'' where
  before h := by
    obtain ⟨stays, in_first⟩ := first.before h
    obtain ⟨stays', in_second⟩ := second.before stays
    exact ⟨stays', fun c mem => (List.mem_append.1 mem).elim (in_first c) (in_second c)⟩
  during c mem := (List.mem_append.1 mem).elim (first.during c) (second.during c)
  between := List.pairwise_append.2 ⟨first.between, second.between, fun c mem c' mem' asked =>
    (second.before (first.after c mem asked)).2 c' mem'⟩
  after c mem asked := (List.mem_append.1 mem).elim
    (fun mem => (second.before (first.after c mem asked)).1) fun mem => second.after c mem asked
  begins past c later split shows := by
    rcases List.append_eq_append_iff.1 split with ⟨rest, rfl, split'⟩ | ⟨rest, rfl, split'⟩
    · -- the input is shown in the second part
      obtain ⟨earlier, d, rfl, begins⟩ := second.begins rest c later split' shows
      exact ⟨trace ++ earlier, d, (List.append_assoc _ _ _).symm, begins⟩
    · cases rest with
      | nil =>
          obtain ⟨earlier, d, nothing, -⟩ := second.begins [] c later split'.symm shows
          simp at nothing
      | cons c' rest =>
          obtain ⟨rfl, -⟩ := List.cons.inj split'
          exact first.begins past c rest rfl shows

/-- After a request no execution begins. -/
theorem nothing_begins (heeds : Heeds asked trace asked') {past later : List (Contact ω)}
    {c : Contact ω} (split : trace = past ++ c :: later) (cancelled : c.CancelledAfter) :
    (∀ d ∈ later, d.CancelledBefore) ∧
      ∀ between d rest,
        later = between ++ d :: rest → d.ShowsInput → between = [] ∧ c.ShowsWork := by
  have apart := heeds.between
  rw [split, List.pairwise_append] at apart
  have stays : ∀ d ∈ later, d.CancelledBefore :=
    fun d mem => (List.pairwise_cons.1 apart.2.1).1 d mem cancelled
  refine ⟨stays, fun between d rest later_eq shows => ?_⟩
  obtain ⟨earlier, b, at_once, begins⟩ :=
    heeds.begins (past ++ c :: between) d rest (by simp [split, later_eq]) shows
  rcases List.eq_nil_or_concat between with rfl | ⟨front, last, rfl⟩
  · have same := List.append_inj_right' at_once rfl
    exact ⟨rfl, List.cons.inj same |>.1 ▸ begins⟩
  · have same : past ++ c :: front ++ [last] = earlier ++ [b] := by simpa using at_once
    obtain rfl : last = b := by simpa using List.append_inj_right' same rfl
    exact absurd (stays last (by simp [later_eq])) begins.2

end Heeds

/-! ## Runs -/

namespace World

/-- From one world of a run to another the slot is kept, and the trace grows by contacts that
heed a request. -/
def Obeys (w w' : World (ω × List (Contact ω))) : Prop :=
  w.engine.slotHeld = true → w'.engine.slotHeld = true ∧ ∃ more,
    w'.trace = w.trace ++ more ∧ Heeds (w.isCancelled = true) more (w'.isCancelled = true)

namespace Obeys

variable {w w' w'' : World (ω × List (Contact ω))}

theorem trans (first : Obeys w w') (second : Obeys w' w'') : Obeys w w'' := by
  intro held
  obtain ⟨held', more, trace, heeds⟩ := first held
  obtain ⟨held'', more', trace', heeds'⟩ := second held'
  exact ⟨held'', more ++ more', by rw [trace', trace, List.append_assoc], heeds.append heeds'⟩

/-- Nobody is in contact with a run that changes its engine and the time only. -/
theorem quiet (trace : w'.trace = w.trace) (held : w'.engine.slotHeld = w.engine.slotHeld)
    (stays : w.isCancelled = true → w'.isCancelled = true) : Obeys w w' :=
  fun slot => ⟨held.trans slot, [], by simp [trace], .nil stays⟩

variable {h : Host ω} (alone : h.LeavesRunsAlone)
include alone

theorem observed (event : RunEvent) (w : World (ω × List (Contact ω)))
    (other : ∀ id value, event ≠ .input id value) : Obeys w (h.traced.observe event w) := by
  intro held
  have advance := alone.observe event (w.map Prod.fst)
  refine ⟨advance.held held, [_], rfl, .single id (advance.cancelled held) ?_⟩
  rintro ⟨id, value, shows⟩
  exact other id value (Passage.report.inj shows)

theorem elapsed (w : World (ω × List (Contact ω))) (time : Nat) :
    Obeys w (h.traced.elapse time w) := by
  intro held
  have advance := alone.elapse time (w.map Prod.fst)
  refine ⟨advance.held held, [_], rfl, .single id (advance.cancelled held) ?_⟩
  rintro ⟨id, value, shows⟩
  cases shows

/-- A node that begins is told to be at work, and then its input is shown. -/
theorem begun (w : World (ω × List (Contact ω))) (t : Task) (goes_on : w.isCancelled = false) :
    Obeys w (w.begin_ h.traced t) := by
  intro held
  let marked := w.modifyState (·.mark t.node.id)
  let event : RunEvent := .executing marked.engine.state.executing
  let first : Contact ω :=
    ⟨.report event, marked.map Prod.fst, h.observe event (marked.map Prod.fst)⟩
  have advance := alone.observe event (marked.map Prod.fst)
  let given := first.after.modifyState (·.recordInput t.node.id t.inputValue)
  let second : Contact ω := ⟨.report (.input t.node.id t.inputValue), given,
    h.observe (.input t.node.id t.inputValue) given⟩
  have advance' := alone.observe (.input t.node.id t.inputValue) given
  have held' : given.engine.slotHeld = true := advance.held held
  have not_asked : ¬ w.isCancelled = true := by simp [goes_on]
  have in_second : first.CancelledAfter → second.CancelledAfter := advance'.cancelled held'
  refine ⟨advance'.held held', [first, second], ?_, ?_⟩
  · simp [trace, begin_, Host.traced, contact, first, second, given, event, marked, map,
      modifyState, modifyEngine]
  refine ⟨fun asked => absurd asked not_asked, ?_, ?_, ?_, ?_⟩
  · simpa using ⟨advance.cancelled held, advance'.cancelled held'⟩
  · exact List.pairwise_pair.2 fun asked => asked
  · simpa using ⟨in_second, fun asked : second.CancelledAfter => asked⟩
  · intro past c later split shows
    match past, split with
    | [], split =>
        obtain ⟨rfl, -⟩ := List.cons.inj split
        obtain ⟨id, value, shown⟩ := shows
        exact absurd (Passage.report.inj shown) (by simp [event])
    | [d], split =>
        obtain ⟨rfl, -⟩ := List.cons.inj split
        exact ⟨[], first, rfl, ⟨_, rfl⟩, not_asked⟩
    | _ :: _ :: _, split => simp at split

theorem output (w : World (ω × List (Contact ω))) (id : String) (data : Json) :
    Obeys w (w.reportOutput h.traced id data) :=
  .trans (.quiet rfl rfl fun asked => asked)
    (.observed alone (.output id data) (w.modifyState (·.recordOutput id data)) (by simp))

theorem reported (w : World (ω × List (Contact ω))) (t : Task) (iteration : Option (String × Nat))
    (x : Execution) (durationMs : Nat) (bindings : Entries String) :
    Obeys w (w.reportExecution h.traced t iteration x durationMs bindings) := by
  have shown : Obeys w
      (if x.continues t.node then w.reportOutput h.traced t.node.id x.data else w) := by
    split
    · exact .output alone w _ _
    · exact .quiet rfl rfl id
  have updated (w : World (ω × List (Contact ω))) (state : NodeState) :
      Obeys w (h.traced.observe (.update t.node.id state) w) := .observed alone _ w (by simp)
  have logged (w : World (ω × List (Contact ω))) :
      Obeys w (w.reportLog h.traced t iteration x durationMs) := by
    let numbered := w.freshId.2
    let entry : LogEntry :=
      { id := w.freshId.1, timestamp := numbered.instant, kind := t.node.kind, name := t.node.id
        sourceIds := t.sources, sourceData := t.inputValue, data := x.data, error := x.error
        iteration := iteration.map (·.2), iteratorId := iteration.map (·.1), durationMs }
    have appended : Obeys w (numbered.modifyState (·.appendLog entry)) := .quiet rfl rfl id
    exact appended.trans (.observed alone (.log entry) _ (by simp))
  have bound (w : World (ω × List (Contact ω))) :
      Obeys w (h.traced.observe (.environment bindings) w) := .observed alone _ w (by simp)
  unfold reportExecution
  dsimp only
  split
  · exact (shown.trans (updated _ _)).trans (logged _)
  · exact ((shown.trans (updated _ _)).trans (logged _)).trans (bound _)

end Obeys

/-- Whatever happens in a run, a request is heeded. -/
theorem actions_obeys {h : Host ω} (alone : h.LeavesRunsAlone) : h.traced.Actions Obeys where
  refl w := .quiet rfl rfl id
  trans := .trans
  begins w t goes_on := .begun alone w t goes_on
  stores w store := .quiet rfl rfl id
  calls w call := .observed alone (.called call) w (by simp)
  ends w t begun outcome := by
    let unmarked := w.modifyState (·.unmark t.node.id)
    have ended : Obeys w (h.traced.observe (.executing unmarked.engine.state.executing) unmarked) :=
      .trans (.quiet rfl rfl id) (.observed alone _ unmarked (by simp))
    unfold end_
    dsimp only
    split <;> exact ended
  answers w treatment := by
    let asking : World (ω × List (Contact ω)) := { w with engine := w.engine.cancel.2 }
    have asks : Obeys w asking := by
      refine .quiet rfl ?_ ?_ <;> simp only [asking, Engine.cancel] <;> split <;>
        simp [Engine.requestCancel, isCancelled]
    have asked : Obeys w (h.traced.observe (.cancelled w.engine.cancel.1) asking) :=
      asks.trans (.observed alone (.cancelled _) asking (by simp))
    have probed (w : World (ω × List (Contact ω))) :
        Obeys w (h.traced.observe (.probed w.engine.probe) w) :=
      .observed alone (.probed _) w (by simp)
    unfold answer
    cases treatment.cancels <;> cases treatment.probes
    · exact .quiet rfl rfl id
    · exact probed w
    · exact asked
    · exact asked.trans (probed _)
  waits w time := .elapsed alone w time
  settles w t iteration x durationMs bindings := .reported alone w t iteration x durationMs bindings
  amends s iterator data :=
    .trans (.output alone s.world iterator data) (.observed alone (.update iterator _) _ (by simp))

end World

section

variable {h : Host ω} {request : RunRequest} {w : World ω}

/-- What was asked for before a run begins is forgotten. -/
theorem executeReserved_cancel (passes : (Graph.ofWorkflow request.workflow).cycleNode? = none) :
    executeReserved h request { w with engine := w.engine.cancel.2 } =
      executeReserved h request w := by
  have running : World.running h { w with engine := w.engine.cancel.2 } = w.running h := by
    unfold Engine.cancel
    split <;> rfl
  rw [executeReserved_eq passes, executeReserved_eq passes, running]
  rfl

/-- **No request to cancel is lost once the run has begun.**  A request before that is accepted and
forgotten.  In the run, from the report that it runs to the report of its final status, a request
stays, no execution begins after it, and the final status is cancelled; and it is cancelled for no
other reason. -/
theorem cancel_heeded (alone : h.LeavesRunsAlone)
    (acyclic : (Graph.ofWorkflow request.workflow).Acyclic) (held : w.engine.slotHeld = true) :
    (w.engine.cancel.1 = true ∧
      executeReserved h request { w with engine := w.engine.cancel.2 } =
        executeReserved h request w) ∧
    ∃ summary w' first inner last, executeReserved h request w = (.ok summary, w') ∧
      (executeReserved h.traced request w.untraced).2.trace = first :: inner ++ [last] ∧
      (first.what = .report (.status .running) ∧ ¬ first.CancelledBefore) ∧
      (last.what = .report (.status summary.status) ∧
        (summary.status = .cancelled ↔ last.CancelledBefore)) ∧
      Heeds False (first :: inner) (summary.status = .cancelled) ∧
      ∀ past c later, first :: inner = past ++ c :: later → c.CancelledAfter →
        summary.status = .cancelled ∧ ∀ between d rest, later = between ++ d :: rest →
          d.ShowsInput → between = [] ∧ c.ShowsWork := by
  have passes := Graph.cycleNode?_eq_none (Graph.wellFormed_ofWorkflow request.workflow) acyclic
  refine ⟨⟨by simp [Engine.cancel, held], executeReserved_cancel passes⟩, ?_⟩
  let g := Graph.ofWorkflow request.workflow
  let begun := w.untraced.running h.traced
  let s := runGraph h.traced request g begun
  -- the first contact, those of the graph, and the last one
  have advance := alone.observe (.status .running) ((w.freshId.2.modifyEngine fun e =>
    { e with cancelRequested := false }).modifyState (·.beginRun w.freshId.1 w.freshId.2.instant))
  have begins : ∃ first, begun.trace = [first] ∧ first.what = .report (.status .running) ∧
      ¬ first.CancelledBefore ∧ Heeds False [first] (begun.isCancelled = true) :=
    ⟨_, rfl, rfl, Bool.false_ne_true, .single False.elim (advance.cancelled held)
      (by rintro ⟨id, value, shows⟩; cases shows)⟩
  obtain ⟨first, trace_begun, runs, not_asked, heeds_first⟩ := begins
  obtain ⟨-, inner, trace_inner, heeds_inner⟩ :=
    (World.actions_obeys alone).runGraph request g begun (held_running alone.traced held)
  have ends : ∃ last,
      (s.world.changeStatus h.traced s.finalStatus).trace = s.world.trace ++ [last] ∧
      last.what = .report (.status s.finalStatus) ∧
      (s.world.isCancelled = true ↔ last.CancelledBefore) :=
    ⟨_, rfl, rfl, Iff.rfl⟩
  obtain ⟨last, trace_last, reports, asked_last⟩ := ends
  have status : s.finalStatus = .cancelled ↔ s.world.isCancelled = true := by
    unfold Ongoing.finalStatus Progress.finalStatus
    cases s.world.isCancelled <;> cases s.progress.halted <;> cases s.progress.failed <;> simp
  have heeds : Heeds False (first :: inner) (s.finalStatus = .cancelled) := by
    rw [status]
    exact heeds_first.append heeds_inner
  have ran : ∃ summary w', executeReserved h request w = (.ok summary, w') ∧
      s.finalStatus = summary.status := by
    rw [executeReserved_traced, executeReserved_eq passes]
    exact ⟨_, _, rfl, rfl⟩
  obtain ⟨summary, w', ran, same⟩ := ran
  rw [same] at reports status heeds
  refine ⟨summary, w', first, inner, last, ran, ?_, ⟨runs, not_asked⟩,
    ⟨reports, status.trans asked_last⟩, heeds, ?_⟩
  · rw [executeReserved_eq passes]
    exact trace_last.trans (by rw [trace_inner, trace_begun, List.singleton_append])
  · intro past c later split asked
    have mem : c ∈ first :: inner := split ▸ List.mem_append_right _ List.mem_cons_self
    exact ⟨heeds.after c mem asked, (heeds.nothing_begins split asked).2⟩

end

/-- A command, and a node that says something after it. -/
def commandFirst : Workflow :=
  { nodes := [{ id := "ask", config := .command { command := "-" } },
      { id := "say", config := .format { template := "-" } }]
    edges := [{ source := "ask", target := "say" }] }

theorem Graph.acyclic_commandFirst : (ofWorkflow commandFirst).Acyclic :=
  acyclic_of_rank (fun id => if id = "ask" then 0 else 1) (by decide)

theorem Plane.ofGraph_commandFirst :
    ofGraph (Graph.ofWorkflow commandFirst) = ⟨Graph.ofWorkflow commandFirst, []⟩ := by
  have regions : (Graph.ofWorkflow commandFirst).regions = [] := by cbv
  rw [ofGraph, regions]

/-- Services that take a while and then ask for the end of the run. -/
def Services.cancelling : Services :=
  { Services.unavailable with treat := fun _ =>
      { delayMs := 5, cancels := true, reply := .failed "" } }

/-- While the command runs, the run is asked to stop; the node after it does not run. -/
theorem cancel_heeded_commandFirst :
    let h := Server.attentive .cancelling
    let w := Server.reserved commandFirst
    ∃ summary w' first inner last,
      executeReserved h { workflow := commandFirst } w = (.ok summary, w') ∧
      summary.status = .cancelled ∧
      (executeReserved h.traced { workflow := commandFirst } w.untraced).2.trace =
        first :: inner ++ [last] ∧
      Heeds False (first :: inner) (summary.status = .cancelled) ∧
      last.what = .report (.status summary.status) := by
  intro h w
  obtain ⟨-, summary, w', first, inner, last, ran, trace, -, ⟨reports, -⟩, heeds, -⟩ :=
    @cancel_heeded _ h { workflow := commandFirst } w
      (Server.leavesRunsAlone_attentive .cancelling) Graph.acyclic_commandFirst rfl
  refine ⟨summary, w', first, inner, last, ran, ?_, trace, heeds, reports⟩
  have passes := Graph.cycleNode?_eq_none (Graph.wellFormed_ofWorkflow _)
    Graph.acyclic_commandFirst
  rw [executeReserved_eq passes] at ran
  obtain rfl := Except.ok.inj (Prod.mk.inj ran).1
  simp only [runGraph, Plane.ofGraph_commandFirst, w]
  decide +kernel

/-- A single node. -/
def single : Workflow :=
  { id := "single", name := "single"
    nodes := [{ id := "say", config := .format { template := "-" } }]
    edges := [] }

theorem Graph.acyclic_single : (ofWorkflow single).Acyclic :=
  acyclic_of_rank (fun _ => 0) (by decide)

theorem Plane.ofGraph_single :
    ofGraph (Graph.ofWorkflow single) = ⟨Graph.ofWorkflow single, []⟩ := by
  have regions : (Graph.ofWorkflow single).regions = [] := by cbv
  rw [ofGraph, regions]

/-- Asked to stop between taking the slot and the beginning of the run, a run goes on to its end as
if nothing had been said. -/
theorem completed_cancelled_beforehand :
    let h := Server.attentive .unavailable
    let idle : ServerWorld :=
      { engine := { defaultTimeoutMs := 1000 }, outside := { document := .ofWorkflow single 1 } }
    (Graph.ofWorkflow single).Acyclic ∧ ∃ reserved asked,
      idle.engine.reserve = .ok reserved ∧ reserved.cancel = (true, asked) ∧
      ∃ summary w', executeReserved h { workflow := single } { idle with engine := asked } =
          (.ok summary, w') ∧
        summary.status = .completed ∧
        (summary.results.get? "say").map (·.executions) = some 1 ∧
        w'.engine.state.log.map (·.name) = ["say"] := by
  intro h idle
  have acyclic := Graph.acyclic_single
  have passes := Graph.cycleNode?_eq_none (Graph.wellFormed_ofWorkflow _) acyclic
  refine ⟨acyclic, _, _, rfl, rfl, _, _, executeReserved_eq passes, ?_⟩
  simp only [runGraph, Plane.ofGraph_single, h, idle]
  decide +kernel

end Flowline
