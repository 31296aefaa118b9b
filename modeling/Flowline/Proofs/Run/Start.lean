import Flowline.Run.Wave

/-!
# How a node starts

A node that starts in a run that goes on makes its plan (`World.planned`).  If the plan calls no
service the node ends at once; else the service is called (`World.asked`), and the node ends at once
if nothing has to be waited for, or waits (`World.jobFor`).  `World.start_eq` puts these together.
-/

namespace Flowline.World

variable {ω : Type} (h : Host ω) (view : WaveView)

/-- The plan of a node that begins, and the world in which it has been made. -/
def planned (w : World ω) (t : Task) : Plan × World ω :=
  let w := w.begin_ h t
  let made := t.node.plan (w.context h view t) w.engine.store
  (made.1, w.modifyEngine fun e => { e with store := made.2 })

/-- The world in which the service of the plan has been called. -/
def asked (w : World ω) (t : Task) (call : ServiceCall) : World ω :=
  h.observe (.called call) (w.planned h view t).2

/-- The node as it waits for its service. -/
def jobFor (w : World ω) (t : Task) (call : ServiceCall) : Waiting where
  task := t
  plan := (w.planned h view t).1
  treatment := h.services.treat call
  timeoutMs := ((w.begin_ h t).context h view t).timeoutMs
  begun := (w.asked h view t call).now

theorem plan_planned (w : World ω) (t : Task) :
    (w.planned h view t).1 =
      (t.node.plan ((w.begin_ h t).context h view t) (w.begin_ h t).engine.store).1 := by
  unfold planned
  dsimp only

theorem plan_jobFor (w : World ω) (t : Task) (call : ServiceCall) :
    (w.jobFor h view t call).plan = (w.planned h view t).1 := by
  unfold jobFor
  dsimp only

/-- An end without a wait. -/
def overAt (ended : Option Ended × World ω) : Started × World ω := (.over ended.1, ended.2)

/-- What a node comes to that calls no service. -/
def endPlanned (w : World ω) (t : Task) : Option Ended × World ω :=
  let planned := w.planned h view t
  planned.2.end_ h t planned.2.now (planned.1.resume (.failed ""))

theorem start_eq (w : World ω) (t : Task) :
    w.start h view t =
      if w.isCancelled then (.over none, w)
      else match (w.planned h view t).1.call? with
        | none => overAt (w.endPlanned h view t)
        | some call =>
          if (w.jobFor h view t call).waitMs = 0 then
            overAt ((w.asked h view t call).finish h (w.jobFor h view t call))
          else (.waiting (w.jobFor h view t call), w.asked h view t call) := by
  unfold start endPlanned jobFor asked planned
  dsimp only
  generalize t.node.plan ((w.begin_ h t).context h view t) (w.begin_ h t).engine.store = made
  rfl

/-- Only a node that calls a service waits. -/
theorem start_eq_waiting {w : World ω} {t : Task} {job : Waiting}
    (waits : (w.start h view t).1 = .waiting job) :
    ∃ call, (w.planned h view t).1.call? = some call ∧ job = w.jobFor h view t call := by
  rw [start_eq] at waits
  split at waits
  · cases waits
  · split at waits
    · cases waits
    · next call called =>
        split at waits
        · cases waits
        · cases waits
          exact ⟨call, called, rfl⟩

end Flowline.World
