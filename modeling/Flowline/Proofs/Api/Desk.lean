import Flowline.Api.Server
import Flowline.Proofs.Run.Lifecycle

/-!
# The slot of a server

A `Desk` is a server together with the slots that its callers have taken and not used yet.  Calls
come in any order, between runs and at every contact of a run with the rest of the program.  Every
slot of the engine is in one pair of hands (`Desk.Balanced`): those of a caller, of the run that was
accepted, or of the run that goes on.  So there is at most one, a run begins if and only if there is
none and the graph has no cycle, and whoever is refused has changed nothing (`Desk.orderly_foldl`).
-/

namespace Flowline.Api

/-! ## Requests -/

/-- The slot, the run that was accepted and the nodes that execute are left alone. -/
structure Aside (w w' : ServerWorld) : Prop where
  slot : w'.engine.slotHeld = w.engine.slotHeld
  accepted : w'.outside.accepted = w.outside.accepted
  executing : w'.engine.state.executing = w.engine.state.executing

section

variable (w : ServerWorld) (services : Services)

theorem Aside.refl : Aside w w := ⟨rfl, rfl, rfl⟩

theorem aside_replaceWorkflow (workflow : Workflow) : Aside w (replaceWorkflow w workflow).2 := by
  unfold replaceWorkflow
  split
  · exact .refl w
  · exact ⟨rfl, rfl, rfl⟩

theorem aside_edit (command : EditCommand) : Aside w (edit w command).2 := by
  unfold edit
  split
  · exact .refl w
  · exact ⟨rfl, rfl, rfl⟩

theorem aside_cancelRun : Aside w (cancelRun w).2 :=
  ⟨w.engine.cancel_kept.1, rfl, congrArg (·.executing) w.engine.cancel_kept.2⟩

theorem aside_resetNode (id : String) : Aside w (resetNode w id).2 := by
  unfold resetNode
  split
  · exact .refl w
  · exact ⟨rfl, rfl, rfl⟩

/-- A request starts a run, or leaves the runs alone. -/
def StartsOrAside (w' : ServerWorld) : Prop :=
  (∃ order, w' = (startRun w services order).2) ∨ Aside w w'

variable {w services} {response : Response} {w' : ServerWorld}

theorem startsOrAside_of_map {α : Type} {content : Except Rejection α}
    {f : α → Response × ServerWorld} (each : ∀ a, StartsOrAside w services (f a).2)
    (acts : content.map f = .ok (response, w')) : StartsOrAside w services w' := by
  cases content with
  | error rejection => cases acts
  | ok a =>
      have same : f a = (response, w') := Except.ok.inj acts
      have starts := each a
      rwa [same] at starts

theorem startsOrAside_act {r : Request} {action : Action}
    (acts : act w services r action = .ok (response, w')) : StartsOrAside w services w' := by
  cases action with
  | showWorkflow | showRun | undo | redo | resetNodes =>
      cases acts
      exact .inr ⟨rfl, rfl, rfl⟩
  | replaceWorkflow => exact startsOrAside_of_map (fun a => .inr (aside_replaceWorkflow w a)) acts
  | edit => exact startsOrAside_of_map (fun a => .inr (aside_edit w a)) acts
  | startRun => exact startsOrAside_of_map (fun order => .inl ⟨order, rfl⟩) acts
  | cancelRun =>
      cases acts
      exact .inr (aside_cancelRun w)
  | resetNode segment =>
      simp only [act] at acts
      split at acts
      · next id _ =>
          have aside := aside_resetNode w id
          rw [Except.ok.inj acts] at aside
          exact .inr aside
      · cases acts

theorem startsOrAside_serve (w : ServerWorld) (services : Services) (r : Request) :
    StartsOrAside w services (serve w services r).2 := by
  unfold serve
  split
  · exact .inr (.refl w)
  · dsimp only
    split
    · exact .inr (.refl w)
    · split
      · exact .inr (.refl w)
      · next acts => exact startsOrAside_act acts

/-! ## Starting a run -/

/-- No run is accepted that has not begun. -/
def Server.Unclaimed (s : Server) : Prop := s.accepted = none

theorem Server.respects_attentive (services : Services) :
    (Server.attentive services).Respects Server.Unclaimed where
  observe event w holds := by
    refine ⟨⟨holds.1, ?_⟩, rfl⟩
    have unclaimed : w.outside.accepted = none := holds.2
    change (w.outside.observe event).accepted = none
    cases event <;> exact unclaimed
  elapse _ _ holds := ⟨holds, rfl⟩

/-- A run is refused in the same way whether its client waits or not. -/
theorem startRun_of_refusal? {order : RunOrder} {e : EngineError}
    (refused : w.refusal? (order.request w.outside.document.workflow) = some e) :
    startRun w services order = (refuseRun e, w) := by
  unfold startRun
  dsimp only
  split
  · rw [execute_of_refusal? refused]
  · unfold Engine.reserve
    rcases World.refusal?_cases refused with ⟨slot, rfl⟩ | ⟨free, id, cycle, rfl⟩
    · rw [if_pos slot]
    · rw [if_neg (by simp [free]), cycle]

/-- A run that its client waits for is lived through. -/
theorem startRun_of_waiting {order : RunOrder} (waits : order.wait = true)
    (unclaimed : w.outside.Unclaimed)
    (accepted : w.refusal? (order.request w.outside.document.workflow) = none) :
    let request := order.request w.outside.document.workflow
    let h := Server.attentive services
    RunsOnce Server.Unclaimed (execute h request w)
      (execute h.traced request w.untraced).2.trace ∧
    ∃ summary, (execute h request w).1 = .ok summary ∧
      startRun w services order = (.ok summary.encode, (execute h request w).2) := by
  intro request h
  have lives := runsOnce_execute (Server.respects_attentive services) unclaimed accepted
  obtain ⟨summary, ran, -⟩ := lives.ends
  refine ⟨lives, summary, ran, ?_⟩
  have split : execute h request w = (.ok summary, (execute h request w).2) := Prod.ext ran rfl
  unfold startRun
  dsimp only
  rw [if_pos waits, split]

/-- A run for which nobody waits is accepted in the slot. -/
theorem startRun_of_accepted {order : RunOrder} (away : order.wait = false)
    (accepted : w.refusal? (order.request w.outside.document.workflow) = none) :
    startRun w services order =
      (⟨202, .json (.obj [("status", .str "running")])⟩,
        { w.inSlot with
          outside := { w.outside with
            accepted := some (order.request w.outside.document.workflow) } }) := by
  obtain ⟨free, acyclic⟩ := World.refusal?_eq_none_iff.1 accepted
  unfold startRun Engine.reserve
  dsimp only
  rw [away, if_neg (by simp), if_neg (by simp [free]), (cycleNode?_eq_none_iff _).2 acyclic]
  rfl

end

/-! ## Desks -/

/-- A server, the number of slots that callers have taken and not used, and the number of contacts
that runs have made. -/
structure Desk where
  server : Server
  slots : Nat := 0
  turn : Nat := 0

abbrev DeskWorld := World Desk

/-- What a caller can do. -/
inductive Call where
  /-- Take the slot. -/
  | reserve
  /-- Give a slot back that was taken. -/
  | drop
  /-- Run a workflow, as a request does whose client waits. -/
  | execute (request : RunRequest)
  /-- Run a workflow in a slot that was taken. -/
  | executeReserved (request : RunRequest)
  /-- The run that was accepted begins. -/
  | begin_
  /-- Send a request to the server. -/
  | send (r : Request)

namespace Desk

/-- All slots that have been taken and not used. -/
def unused (d : Desk) : Nat := d.slots + d.server.accepted.toList.length

/-- Nobody has a slot. -/
def Unclaimed (d : Desk) : Prop := d.slots = 0 ∧ d.server.Unclaimed

/-- A new engine behind a new server. -/
def opened (document : Document) (defaultTimeoutMs : Nat) : DeskWorld :=
  { engine := { defaultTimeoutMs }, outside := { server := { document } } }

/-- A caller hands the slot over. -/
def handOver? (w : DeskWorld) : Option DeskWorld :=
  match w.outside.slots with
  | 0 => none
  | slots + 1 => some { w with outside := { w.outside with slots } }

/-- The run that was accepted, with its slot. -/
def takeAccepted? (w : DeskWorld) : Option (RunRequest × DeskWorld) :=
  w.outside.server.accepted.map fun request =>
    let server := { w.outside.server with accepted := none }
    (request, { w with outside := { w.outside with server } })

/-- Serve a request. -/
def serve (services : Services) (r : Request) (w : DeskWorld) : DeskWorld :=
  let served := (Api.serve (w.map Desk.server) services r).2
  { served with outside := { w.outside with server := served.outside } }

/-- What a call does; where there is nothing to drop, to use or to begin, it does nothing. -/
def perform (h : Host Desk) (w : DeskWorld) : Call → DeskWorld
  | .reserve =>
    match w.engine.reserve with
    | .error _ => w
    | .ok engine => { w with engine, outside := { w.outside with slots := w.outside.slots + 1 } }
  | .drop => (handOver? w).elim w (·.modifyEngine (·.release))
  | .execute request => (Flowline.execute h request w).2
  | .executeReserved request =>
    (handOver? w).elim w fun w => (Flowline.executeReserved h request w).2
  | .begin_ => (takeAccepted? w).elim w fun (request, w) =>
    (Flowline.executeReserved h request w).2
  | .send r => serve h.services r w

/-- Calls come while a run is in contact with the rest of the program; `inner` would be the host of
a run that began then. -/
def visit (visits : Nat → List Call) (inner : Host Desk) (w : DeskWorld) : DeskWorld :=
  (visits w.outside.turn).foldl (perform inner)
    { w with outside := { w.outside with turn := w.outside.turn + 1 } }

/-- The host of runs beside which calls come, at each contact those of its number. -/
def host (services : Services) (visits : Nat → List Call) (inner : Host Desk) : Host Desk where
  services
  observe event w :=
    let server := w.outside.server.observe event
    visit visits inner { w with outside := { w.outside with server } }
  elapse time w := visit visits inner { w with now := time }

/-! ### Beside a run -/

section

variable {w : DeskWorld}

theorem handOver?_of_unclaimed (unclaimed : w.outside.Unclaimed) : handOver? w = none := by
  unfold handOver?
  rw [unclaimed.1]

theorem takeAccepted?_of_unclaimed (unclaimed : w.outside.Unclaimed) : takeAccepted? w = none := by
  have nothing : w.outside.server.accepted = none := unclaimed.2
  unfold takeAccepted?
  rw [nothing]
  rfl

theorem respects_serve (services : Services) (r : Request) :
    World.Respects Unclaimed w (serve services r w) := by
  intro holds
  obtain ⟨slot, no_slots, no_run⟩ := holds
  rcases startsOrAside_serve (w.map Desk.server) services r with ⟨order, same⟩ | aside
  · have refused : (startRun (w.map Desk.server) services order).2 = w.map Desk.server :=
      congrArg Prod.snd (startRun_of_refusal? (World.refusal?_of_held slot _))
    have stays : serve services r w = w := by
      unfold serve
      rw [same, refused]
      rfl
    rw [stays]
    exact ⟨⟨slot, no_slots, no_run⟩, rfl⟩
  · exact ⟨⟨aside.slot.trans slot, no_slots, aside.accepted.trans no_run⟩, aside.executing⟩

/-- Nothing that callers do touches a run that goes on. -/
theorem respects_perform (h : Host Desk) (call : Call) :
    World.Respects Unclaimed w (perform h w call) := by
  intro holds
  have stays {w' : DeskWorld} (same : w' = w) :
      w'.Holds Unclaimed ∧ w'.engine.state.executing = w.engine.state.executing := by
    rw [same]
    exact ⟨holds, rfl⟩
  have no_slot := handOver?_of_unclaimed holds.2
  cases call with
  | reserve =>
      have taken : w.engine.reserve = .error .runInProgress := if_pos holds.1
      refine stays ?_
      simp only [perform, taken]
  | drop => exact stays (by rw [perform, no_slot, Option.elim_none])
  | execute request =>
      exact stays (by rw [perform, execute_of_refusal? (World.refusal?_of_held holds.1 request)])
  | executeReserved request => exact stays (by rw [perform, no_slot, Option.elim_none])
  | begin_ =>
      exact stays (by rw [perform, takeAccepted?_of_unclaimed holds.2, Option.elim_none])
  | send r => exact respects_serve h.services r holds

theorem respects_foldl (h : Host Desk) (calls : List Call) :
    World.Respects Unclaimed w (calls.foldl (perform h) w) := by
  induction calls generalizing w with
  | nil => exact fun holds => ⟨holds, rfl⟩
  | cons call rest ih =>
      intro holds
      obtain ⟨holds', executing⟩ := respects_perform h call holds
      obtain ⟨holds'', executing'⟩ := ih holds'
      exact ⟨holds'', executing'.trans executing⟩

theorem respects_host (services : Services) (visits : Nat → List Call) (inner : Host Desk) :
    (host services visits inner).Respects Unclaimed where
  observe event w holds := by
    have kept := (Server.respects_attentive services).observe event (w.map Desk.server)
      ⟨holds.1, holds.2.2⟩
    exact respects_foldl inner (visits w.outside.turn) ⟨holds.1, holds.2.1, kept.1.2⟩
  elapse time w holds := respects_foldl inner (visits w.outside.turn) holds

end

/-! ### Between runs -/

/-- Every slot that the engine has given out is in the hands of a caller or of the run that was
accepted, and that run will not be refused. -/
structure Balanced (w : DeskWorld) : Prop where
  unused : w.outside.unused = w.engine.slotHeld.toNat
  passes : ∀ request, w.outside.server.accepted = some request →
    (Graph.ofWorkflow request.workflow).Acyclic

section

variable {w w' : DeskWorld} {request : RunRequest}

namespace Balanced

theorem unclaimed (balanced : Balanced w) (free : w.engine.slotHeld = false) :
    w.outside.Unclaimed := by
  have none_unused := balanced.unused
  rw [free, Desk.unused] at none_unused
  obtain ⟨no_slots, no_run⟩ := Nat.add_eq_zero_iff.1 none_unused
  exact ⟨no_slots, Option.toList_eq_nil_iff.1 (List.length_eq_zero_iff.1 no_run)⟩

/-- Behind a run nobody has a slot. -/
theorem of_unclaimed (free : w.engine.slotHeld = false) (unclaimed : w.outside.Unclaimed) :
    Balanced w where
  unused := by
    have no_run : w.outside.server.accepted = none := unclaimed.2
    rw [free, Desk.unused, unclaimed.1, no_run]
    rfl
  passes request set := by
    have no_run : w.outside.server.accepted = none := unclaimed.2
    rw [no_run] at set
    cases set

theorem of_runsOnce {ran : Except EngineError RunSummary × DeskWorld}
    {trace : List (Contact Desk)} (runs : RunsOnce Unclaimed ran trace) : Balanced ran.2 :=
  of_unclaimed runs.released runs.outside

/-- A slot that somebody has is the only one, and the engine has given it out. -/
theorem unused_eq_one (balanced : Balanced w) (some_slot : 0 < w.outside.unused) :
    w.engine.slotHeld = true ∧ w.outside.unused = 1 := by
  have count := balanced.unused
  cases slot : w.engine.slotHeld with
  | true => exact ⟨rfl, by rw [count, slot, Bool.toNat_true]⟩
  | false =>
      rw [slot, Bool.toNat_false] at count
      omega

theorem holds_handOver? (balanced : Balanced w) (taken : handOver? w = some w') :
    w'.Holds Unclaimed := by
  unfold handOver? at taken
  split at taken
  · cases taken
  · next slots some_slots =>
      obtain rfl := Option.some.inj taken
      obtain ⟨held, count⟩ := balanced.unused_eq_one (by rw [Desk.unused, some_slots]; omega)
      rw [Desk.unused, some_slots] at count
      have no_run : w.outside.server.accepted = none :=
        Option.toList_eq_nil_iff.1 (List.length_eq_zero_iff.1 (by omega))
      exact ⟨held, show slots = 0 by omega, no_run⟩

/-- The run that was accepted has the slot, and will not be refused. -/
theorem holds_takeAccepted? (balanced : Balanced w)
    (taken : takeAccepted? w = some (request, w')) :
    w'.Holds Unclaimed ∧ (Graph.ofWorkflow request.workflow).Acyclic := by
  obtain ⟨accepted, set, same⟩ := Option.map_eq_some_iff.1 taken
  obtain ⟨rfl, rfl⟩ := Prod.mk.inj same
  have unused : w.outside.unused = w.outside.slots + 1 := by
    rw [Desk.unused, set]
    rfl
  obtain ⟨held, count⟩ := balanced.unused_eq_one (by omega)
  exact ⟨⟨held, show w.outside.slots = 0 by omega, rfl⟩, balanced.passes accepted set⟩

end Balanced

end

section

variable (services : Services) (visits : Nat → List Call) (inner : Host Desk)

theorem balanced_serve {w : DeskWorld} (balanced : Balanced w) (r : Request) :
    Balanced (serve services r w) := by
  rcases startsOrAside_serve (w.map Desk.server) services r with ⟨order, same⟩ | aside
  · let server := w.map Desk.server
    let request := order.request server.outside.document.workflow
    unfold serve
    rw [same]
    cases refusal : server.refusal? request with
    | some e =>
        rw [startRun_of_refusal? refusal]
        exact balanced
    | none =>
        obtain ⟨free, acyclic⟩ := World.refusal?_eq_none_iff.1 refusal
        have unclaimed := balanced.unclaimed free
        cases waits : order.wait with
        | true =>
            obtain ⟨lives, summary, -, response⟩ :=
              startRun_of_waiting waits unclaimed.2 refusal
            rw [response]
            exact .of_unclaimed lives.released ⟨unclaimed.1, lives.outside⟩
        | false =>
            rw [startRun_of_accepted waits refusal]
            have count : w.outside.slots + 1 = 1 := congrArg (· + 1) unclaimed.1
            refine ⟨count, fun other set => ?_⟩
            obtain rfl := Option.some.inj set
            exact acyclic
  · have same : (serve services r w).outside.server.accepted = w.outside.server.accepted :=
      aside.accepted
    have slot : (serve services r w).engine.slotHeld = w.engine.slotHeld := aside.slot
    refine ⟨?_, fun request set => balanced.passes request (same.symm.trans set)⟩
    rw [slot, ← balanced.unused, Desk.unused, same]
    rfl

/-- A balanced desk stays so. -/
theorem balanced_perform {w : DeskWorld} (balanced : Balanced w) (call : Call) :
    Balanced (perform (host services visits inner) w call) := by
  have respects := respects_host services visits inner
  have runsReserved {request : RunRequest} {w : DeskWorld} (holds : w.Holds Unclaimed) :
      Balanced (executeReserved (host services visits inner) request w).2 := by
    cases cycle : (Graph.ofWorkflow request.workflow).cycleNode? with
    | some id =>
        rw [executeReserved_of_cycle cycle]
        exact .of_unclaimed rfl holds.2
    | none =>
        exact .of_runsOnce (runsOnce_executeReserved respects holds
          ((cycleNode?_eq_none_iff _).1 cycle))
  cases call with
  | reserve =>
      cases slot : w.engine.slotHeld with
      | true =>
          have taken : w.engine.reserve = .error .runInProgress := if_pos slot
          simp only [perform, taken]
          exact balanced
      | false =>
          have taken : w.engine.reserve = .ok { w.engine with slotHeld := true } :=
            if_neg (by simp [slot])
          have unclaimed := balanced.unclaimed slot
          have no_run : w.outside.server.accepted = none := unclaimed.2
          simp only [perform, taken]
          refine ⟨?_, balanced.passes⟩
          rw [Desk.unused, unclaimed.1, no_run]
          rfl
  | drop =>
      cases taken : handOver? w with
      | none =>
          rw [perform, taken]
          exact balanced
      | some w' =>
          rw [perform, taken]
          exact .of_unclaimed rfl (balanced.holds_handOver? taken).2
  | execute request =>
      cases refusal : w.refusal? request with
      | some e =>
          rw [perform, execute_of_refusal? refusal]
          exact balanced
      | none =>
          obtain ⟨free, -⟩ := World.refusal?_eq_none_iff.1 refusal
          exact .of_runsOnce (runsOnce_execute respects (balanced.unclaimed free) refusal)
  | executeReserved request =>
      cases taken : handOver? w with
      | none =>
          rw [perform, taken]
          exact balanced
      | some w' =>
          rw [perform, taken]
          exact runsReserved (balanced.holds_handOver? taken)
  | begin_ =>
      cases taken : takeAccepted? w with
      | none =>
          rw [perform, taken]
          exact balanced
      | some run =>
          rw [perform, taken]
          exact runsReserved (balanced.holds_takeAccepted? taken).1
  | send r => exact balanced_serve services balanced r

end

/-- What callers meet between runs.  Whether a run is refused does not depend on who waits for it,
so a client that waits and one that does not are refused in the same way. -/
structure Orderly (h : Host Desk) (w : DeskWorld) : Prop where
  /-- The slots that exist are those that the engine has given out. -/
  slots : w.outside.unused = w.engine.slotHeld.toNat ∧ w.outside.unused ≤ 1
  refuses : ∀ {request e}, w.refusal? request = some e →
    Flowline.execute h request w = (.error e, w) ∧
    Flowline.execute h.traced request w.untraced = (.error e, w.untraced)
  runs : ∀ {request}, w.refusal? request = none →
    RunsOnce Unclaimed (Flowline.execute h request w)
      (Flowline.execute h.traced request w.untraced).2.trace
  /-- A slot that is handed over to a run that is refused is given back. -/
  refusesReserved : ∀ {request w' id}, handOver? w = some w' →
    (Graph.ofWorkflow request.workflow).cycleNode? = some id →
    Flowline.executeReserved h request w' =
      (.error (.graphCycle id), w'.modifyEngine (·.release)) ∧
    Flowline.executeReserved h.traced request w'.untraced =
      (.error (.graphCycle id), w'.untraced.modifyEngine (·.release))
  runsReserved : ∀ {request w'}, handOver? w = some w' →
    (Graph.ofWorkflow request.workflow).cycleNode? = none →
    RunsOnce Unclaimed (Flowline.executeReserved h request w')
      (Flowline.executeReserved h.traced request w'.untraced).2.trace
  /-- A run that was accepted is not refused any more. -/
  runsAccepted : ∀ {request w'}, takeAccepted? w = some (request, w') →
    RunsOnce Unclaimed (Flowline.executeReserved h request w')
      (Flowline.executeReserved h.traced request w'.untraced).2.trace
  /-- A client is refused in the same way whether it waits or not. -/
  refusesOrder : ∀ {services} {order : RunOrder} {e},
    w.refusal? (order.request w.outside.server.document.workflow) = some e →
    startRun (w.map Desk.server) services order = (refuseRun e, w.map Desk.server)
  runsOrder : ∀ {services} {order : RunOrder}, order.wait = true →
    let request := order.request w.outside.server.document.workflow
    let h := Server.attentive services
    let server := w.map Desk.server
    w.refusal? request = none →
    RunsOnce Server.Unclaimed (Flowline.execute h request server)
      (Flowline.execute h.traced request server.untraced).2.trace ∧
    ∃ summary, (Flowline.execute h request server).1 = .ok summary ∧
      startRun server services order =
        (.ok summary.encode, (Flowline.execute h request server).2)
  acceptsOrder : ∀ {services} {order : RunOrder}, order.wait = false →
    let request := order.request w.outside.server.document.workflow
    let server := w.map Desk.server
    w.refusal? request = none →
    startRun server services order =
      (⟨202, .json (.obj [("status", .str "running")])⟩,
        { server.inSlot with outside := { w.outside.server with accepted := some request } })

theorem Balanced.orderly {h : Host Desk} {w : DeskWorld} (balanced : Balanced w)
    (respects : h.Respects Unclaimed) : Orderly h w where
  slots := ⟨balanced.unused, balanced.unused ▸ Bool.toNat_le _⟩
  refuses refused := ⟨execute_of_refusal? refused, execute_of_refusal? refused⟩
  runs accepted :=
    runsOnce_execute respects (balanced.unclaimed (World.refusal?_eq_none_iff.1 accepted).1)
      accepted
  refusesReserved _ cycle := ⟨executeReserved_of_cycle cycle, executeReserved_of_cycle cycle⟩
  runsReserved taken passes :=
    runsOnce_executeReserved respects (balanced.holds_handOver? taken)
      ((cycleNode?_eq_none_iff _).1 passes)
  runsAccepted taken :=
    have ⟨holds, acyclic⟩ := balanced.holds_takeAccepted? taken
    runsOnce_executeReserved respects holds acyclic
  refusesOrder refused := startRun_of_refusal? refused
  runsOrder := by
    intro services order waits request h server accepted
    have unclaimed := balanced.unclaimed (World.refusal?_eq_none_iff.1 accepted).1
    have accepted : server.refusal? request = none := accepted
    exact startRun_of_waiting waits unclaimed.2 accepted
  acceptsOrder := by
    intro services order away request server accepted
    have accepted : server.refusal? request = none := accepted
    exact startRun_of_accepted away accepted

/-- **The engine is lent to one run at a time.**  Whatever calls have come since the server was
opened, and whatever calls come at the contacts of a run, the desk is orderly: at most one slot
exists; a run is refused if and only if there is one or its graph has a cycle, and then nothing has
changed; and a run that is accepted reports that it runs and one final status, and leaves the slot
free and no node executing.  No call that comes beside it gets a slot. -/
theorem orderly_foldl (services : Services) (visits : Nat → List Call) (inner : Host Desk)
    (document : Document) (defaultTimeoutMs : Nat) (calls : List Call) :
    let h := host services visits inner
    let w := calls.foldl (perform h) (opened document defaultTimeoutMs)
    Orderly h w ∧
    (∀ request, w.refusal? request = none ↔
      w.engine.slotHeld = false ∧ (Graph.ofWorkflow request.workflow).Acyclic) ∧
    ∀ v : DeskWorld, v.Holds Unclaimed →
      ∀ beside : List Call, World.Holds Unclaimed (beside.foldl (perform inner) v) := by
  intro h w
  have begins : Balanced (opened document defaultTimeoutMs) := .of_unclaimed rfl ⟨rfl, rfl⟩
  have balanced : Balanced w := by
    refine List.foldlRecOn calls (perform h) begins fun w balanced call _ => ?_
    exact balanced_perform services visits inner balanced call
  refine ⟨balanced.orderly (respects_host services visits inner), fun _ => ?_, ?_⟩
  · exact World.refusal?_eq_none_iff
  · exact fun v holds beside => (respects_foldl inner beside holds).1

end Desk

end Flowline.Api
