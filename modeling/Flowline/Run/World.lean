import Flowline.Run.Engine
import Flowline.Service

/-!
# A run and the world around it

A run changes the engine, lets time pass, and reports what happens. The rest of the program lives
beside it: what it does with the reports, and what it does itself while the run waits, are the two
functions of a `Host`. Time is counted in milliseconds and passes only while every node waits.
-/

namespace Flowline

/-- What a glance at the engine shows. -/
structure Probe where
  running : Bool
  reserve : Option EngineError
  executing : List String
  status : RunStatus

/-- The glance. -/
def Engine.probe (e : Engine) : Probe :=
  { running := e.slotHeld
    reserve := match e.reserve with
      | .ok _ => none
      | .error error => some error
    executing := e.state.executing
    status := e.state.status }

/-- What a run reports. -/
inductive RunEvent where
  | status (s : RunStatus)
  | executing (ids : List String)
  | input (id : String) (value : Json)
  | output (id : String) (value : Json)
  | update (id : String) (state : NodeState)
  | log (entry : LogEntry)
  | environment (bindings : Entries String)
  /-- A service was called. -/
  | called (call : ServiceCall)
  /-- A service asked to cancel the run; whether there was one to cancel. -/
  | cancelled (accepted : Bool)
  /-- A service glanced at the engine. -/
  | probed (probe : Probe)

/-- The engine, the time, the number of identifiers made so far, and the rest of the program. -/
structure World (ω : Type) where
  engine : Engine
  now : Nat := 0
  serial : Nat := 0
  outside : ω

/-- What the rest of the program does with reports, and what happens in it until a time. -/
structure Host (ω : Type) where
  services : Services
  observe : RunEvent → World ω → World ω
  elapse : Nat → World ω → World ω

namespace World

variable {ω : Type}

/-- Change the engine. -/
def modifyEngine (w : World ω) (f : Engine → Engine) : World ω := { w with engine := f w.engine }

/-- Change the state of the run. -/
def modifyState (w : World ω) (f : ExecutionState → ExecutionState) : World ω :=
  w.modifyEngine fun e => { e with state := f e.state }

/-- Make a new identifier. -/
def freshId (w : World ω) : Uuid × World ω :=
  (Uuid.ofSerial w.serial, { w with serial := w.serial + 1 })

/-- The present instant. -/
def instant (w : World ω) : Instant := Instant.ofMillis w.now

/-- The run is asked to stop. -/
def isCancelled (w : World ω) : Bool := w.engine.cancelRequested

end World

end Flowline
