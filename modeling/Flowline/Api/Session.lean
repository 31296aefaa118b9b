import Flowline.Api.Server

/-!
# Sessions

A session is what one client does: it sends requests one after the other, and now and then lets
time pass. A run that was accepted goes on while time passes, and requests are served while the
run waits for its services.
-/

namespace Flowline.Api

/-- What a client does. -/
inductive ClientStep where
  | send (request : Request)
  /-- Let so many milliseconds pass. -/
  | pass (ms : Nat)

/-- What a client learns from a step: the response, or which services were called. -/
inductive Answer where
  | response (r : Response)
  | passed (reports : List RunEvent)

/-- The server with its client: what the client will do, when it goes on if it lets time pass, and
what it has learned. -/
structure Session where
  server : Server
  script : List ClientStep
  resumeAt : Option Nat := none
  answers : List Answer := []

/-- The world of a session. -/
abbrev SessionWorld := World Session

namespace Session

variable (services : Services)

/-- The client learns something. -/
def learn (s : Session) (a : Answer) : Session := { s with answers := s.answers ++ [a] }

/-- Serve a request of the client. -/
def serve (r : Request) (w : SessionWorld) : SessionWorld :=
  let (response, served) := Api.serve { w with outside := w.outside.server } services r
  { served with outside := { w.outside with server := served.outside }.learn (.response response) }

/-- The client goes on until it lets time pass or has nothing more to do. -/
def proceed : List ClientStep → SessionWorld → SessionWorld
  | [], w => { w with outside := { w.outside with script := [] } }
  | .send r :: rest, w => proceed rest (serve services r w)
  | .pass ms :: rest, w =>
    { w with outside := { w.outside with script := rest, resumeAt := some (w.now + ms) } }

/-- The time that the client let pass is over. -/
def resume (time : Nat) (w : SessionWorld) : SessionWorld :=
  let reports := w.outside.server.reports
  let server := { w.outside.server with reports := [] }
  let session := { w.outside with server, resumeAt := none }.learn (.passed reports)
  proceed services session.script { w with now := time, outside := session }

/-- The client acts until a time comes; it lets time pass at most so often meanwhile. -/
def actUntil (time : Nat) : Nat → SessionWorld → SessionWorld
  | 0, w => { w with now := time }
  | pauses + 1, w =>
    match w.outside.resumeAt with
    | some t =>
      if t < time then actUntil time pauses (resume services t w) else { w with now := time }
    | none => { w with now := time }

/-- The host of a run that goes on beside the client. -/
def host : Host Session where
  services
  observe e w := { w with outside := { w.outside with server := w.outside.server.observe e } }
  elapse time w := actUntil services time (w.outside.script.length + 1) w

/-- Run what was accepted. -/
def runAccepted (w : SessionWorld) : SessionWorld :=
  match w.outside.server.accepted with
  | none => w
  | some request =>
    let server := { w.outside.server with accepted := none }
    (executeReserved (host services) request
      { w with outside := { w.outside with server } }).2

/-- Go on while the client lets time pass, which it does at most so often. -/
def continue_ : Nat → SessionWorld → SessionWorld
  | 0, w => w
  | pauses + 1, w =>
    if w.outside.resumeAt.isNone then w
    else
      let w := runAccepted services w
      match w.outside.resumeAt with
      | none => w
      | some t => continue_ pauses (resume services t w)

/-- What a client learns from a new server, step by step. -/
def play (document : Document) (defaultTimeoutMs : Nat) (script : List ClientStep) : List Answer :=
  let session : Session := { server := { document }, script }
  let w := proceed services script { engine := { defaultTimeoutMs }, outside := session }
  (continue_ services (script.length + 1) w).outside.answers

end Session

end Flowline.Api
