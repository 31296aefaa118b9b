import Flowline.Api.Session
import Flowline.Proofs.Run.Wave

/-!
# The server leaves runs alone

What a client asks for while a run holds the slot does not disturb the run: no other run begins, a
request to cancel is not taken back, and the log is not touched.

* `Server.leavesRunsAlone_attentive`: the host of a run that its client waits for.
* `Session.leavesRunsAlone_host`: the host of a run beside which requests are served.
-/

namespace Flowline

/-- A run that holds the slot of the engine is not disturbed. -/
structure Engine.Undisturbed (e e' : Engine) : Prop where
  held : e.slotHeld = true → e'.slotHeld = true
  cancelled : e.slotHeld = true → e.cancelRequested = true → e'.cancelRequested = true
  log : e.slotHeld = true → e'.state.log = e.state.log

namespace Engine

variable {e e' e'' : Engine}

theorem Undisturbed.refl (e : Engine) : Undisturbed e e where
  held := id
  cancelled := fun _ => id
  log := fun _ => rfl

theorem Undisturbed.trans (first : Undisturbed e e') (second : Undisturbed e' e'') :
    Undisturbed e e'' where
  held slot := second.held (first.held slot)
  cancelled slot request := second.cancelled (first.held slot) (first.cancelled slot request)
  log slot := (second.log (first.held slot)).trans (first.log slot)

theorem undisturbed_cancel (e : Engine) : Undisturbed e e.cancel.2 := by
  unfold cancel
  split
  · exact { held := id, cancelled := fun _ _ => rfl, log := fun _ => rfl }
  · exact .refl e

theorem undisturbed_resetNode (e : Engine) (id : String) : Undisturbed e (e.resetNode id).2 where
  held slot := slot
  cancelled _ request := request
  log _ := rfl

theorem undisturbed_resetAll (e : Engine) : Undisturbed e e.resetAll where
  held slot := slot
  cancelled _ request := request
  log _ := rfl

end Engine

theorem World.advance_of_undisturbed {ω : Type} {w w' : World ω}
    (undisturbed : w.engine.Undisturbed w'.engine) : World.Advance w [] w' where
  held := undisturbed.held
  cancelled := undisturbed.cancelled
  log slot := by rw [undisturbed.log slot, List.append_nil]

/-- Services that fail at every call. -/
def Services.unavailable : Services where
  directory := { hasConnection := fun _ => false, decrypt := fun _ => .error "" }
  treat _ := { reply := .failed "" }

namespace Api

open Engine (Undisturbed)

/-! ## Requests -/

section

variable (w : ServerWorld) (services : Services)

/-- No run begins while another one holds the slot. -/
theorem undisturbed_startRun (order : RunOrder) :
    Undisturbed w.engine (startRun w services order).2.engine := by
  by_cases slot : w.engine.slotHeld = true
  · have refused : w.engine.reserve = .error .runInProgress := if_pos slot
    have same : (startRun w services order).2 = w := by
      unfold startRun execute
      dsimp only
      rw [refused]
      split
      · rfl
      · rfl
    rw [same]
    exact .refl _
  · exact ⟨fun held => absurd held slot, fun held => absurd held slot, fun held => absurd held slot⟩

theorem undisturbed_replaceWorkflow (workflow : Workflow) :
    Undisturbed w.engine (replaceWorkflow w workflow).2.engine := by
  unfold replaceWorkflow
  split
  · exact .refl _
  · exact .refl _

theorem undisturbed_edit (command : EditCommand) :
    Undisturbed w.engine (edit w command).2.engine := by
  unfold edit
  split
  · exact .refl _
  · exact .refl _

theorem undisturbed_api_resetNode (id : String) :
    Undisturbed w.engine (resetNode w id).2.engine := by
  unfold resetNode
  split
  · exact .refl _
  · exact Engine.undisturbed_resetNode w.engine id

variable {w services} {response : Response} {w' : ServerWorld}

/-- A request whose content is refused changes nothing. -/
theorem undisturbed_of_map {α : Type} {content : Except Rejection α}
    {f : α → Response × ServerWorld} (each : ∀ a, Undisturbed w.engine (f a).2.engine)
    (acts : content.map f = .ok (response, w')) : Undisturbed w.engine w'.engine := by
  cases content with
  | error rejection => cases acts
  | ok a =>
      have same : f a = (response, w') := Except.ok.inj acts
      have undisturbed := each a
      rw [same] at undisturbed
      exact undisturbed

theorem undisturbed_act {r : Request} {action : Action}
    (acts : act w services r action = .ok (response, w')) : Undisturbed w.engine w'.engine := by
  cases action with
  | showWorkflow | showRun | undo | redo =>
      cases acts
      exact .refl _
  | replaceWorkflow => exact undisturbed_of_map (undisturbed_replaceWorkflow w) acts
  | edit => exact undisturbed_of_map (undisturbed_edit w) acts
  | startRun => exact undisturbed_of_map (undisturbed_startRun w services) acts
  | cancelRun =>
      cases acts
      exact Engine.undisturbed_cancel w.engine
  | resetNodes =>
      cases acts
      exact Engine.undisturbed_resetAll w.engine
  | resetNode segment =>
      simp only [act] at acts
      split at acts
      · next id _ =>
          have undisturbed := undisturbed_api_resetNode w id
          rw [Except.ok.inj acts] at undisturbed
          exact undisturbed
      · cases acts

/-- Serving a request does not disturb a run. -/
theorem undisturbed_serve (w : ServerWorld) (services : Services) (r : Request) :
    Undisturbed w.engine (serve w services r).2.engine := by
  unfold serve
  split
  · exact .refl _
  · dsimp only
    split
    · exact .refl _
    · split
      · exact .refl _
      · next acts => exact undisturbed_act acts

end

/-! ## Hosts -/

/-- The world of a server that is about to run a workflow in the slot that it holds. -/
def Server.reserved (workflow : Workflow) : ServerWorld :=
  { engine := { defaultTimeoutMs := 1000, slotHeld := true }
    outside := { document := .ofWorkflow workflow 1 } }

theorem Server.leavesRunsAlone_attentive (services : Services) :
    (Server.attentive services).LeavesRunsAlone where
  observe _ w := World.advance_of_undisturbed (.refl w.engine)
  elapse _ w := World.advance_of_undisturbed (.refl w.engine)

namespace Session

variable (services : Services)

theorem undisturbed_serve (r : Request) (w : SessionWorld) :
    Undisturbed w.engine (serve services r w).engine :=
  Api.undisturbed_serve { w with outside := w.outside.server } services r

theorem undisturbed_proceed (steps : List ClientStep) (w : SessionWorld) :
    Undisturbed w.engine (proceed services steps w).engine := by
  induction steps generalizing w with
  | nil => exact .refl _
  | cons first rest ih =>
      cases first with
      | send r => exact (undisturbed_serve services r w).trans (ih _)
      | pass ms => exact .refl _

theorem undisturbed_resume (time : Nat) (w : SessionWorld) :
    Undisturbed w.engine (resume services time w).engine := by
  let server := { w.outside.server with reports := [] }
  let session := { w.outside with server, resumeAt := none }.learn
    (.passed w.outside.server.reports)
  exact undisturbed_proceed services session.script { w with now := time, outside := session }

theorem undisturbed_actUntil (time pauses : Nat) (w : SessionWorld) :
    Undisturbed w.engine (actUntil services time pauses w).engine := by
  induction pauses generalizing w with
  | zero => exact .refl _
  | succ pauses ih =>
      unfold actUntil
      split
      · next t _ =>
          split
          · exact (undisturbed_resume services t w).trans (ih _)
          · exact .refl _
      · exact .refl _

theorem leavesRunsAlone_host : (host services).LeavesRunsAlone where
  observe _ w := World.advance_of_undisturbed (.refl w.engine)
  elapse time w := World.advance_of_undisturbed
    (undisturbed_actUntil services time (w.outside.script.length + 1) w)

end Session

end Api

end Flowline
