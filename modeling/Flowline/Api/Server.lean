import Flowline.Api.Message
import Flowline.Api.Route
import Flowline.Document.Basic
import Flowline.Run.Execute

/-!
# The server

The server holds the document and the engine. A run writes what it leaves at the nodes into the
document. A client that waits for a run gets its summary; for any other client the run is accepted
with the slot held, and begins as soon as the client lets time pass.
-/

namespace Flowline.Api

/-- What the server holds besides the engine: the document, the run that was accepted and has not
begun, and the reports on services that nobody has looked at yet. -/
structure Server where
  document : Document
  accepted : Option RunRequest := none
  reports : List RunEvent := []

/-- What a client asks for when it starts a run. -/
structure RunOrder where
  environment : Option Environment
  integrations : List Integration
  /-- The response is the summary of the run. -/
  wait : Bool

namespace RunOrder

open Decoder Fields

def decode : Decoder RunOrder := record <|
  RunOrder.mk <$> Fields.optional "environment" Environment.decode <*>
    withDefault "integrations" (list Integration.decode) [] <*> withDefault "wait" bool false

/-- The run of a workflow that is ordered. -/
def request (o : RunOrder) (workflow : Workflow) : RunRequest :=
  { workflow, environment := o.environment.getD {}, integrations := o.integrations }

end RunOrder

namespace Server

/-- The document as a response shows it. -/
def showDocument (s : Server) (changed : Bool) : Response :=
  .ok <| .obj [("workflow", s.document.workflow.encode), ("canUndo", .bool s.document.canUndo),
    ("canRedo", .bool s.document.canRedo), ("changed", .bool changed)]

/-- Take a report of a run in. -/
def observe (s : Server) : RunEvent → Server
  | .update id state =>
    { s with document := (s.document.setNodeState? id state).getD s.document }
  | .called call => { s with reports := s.reports ++ [.called call] }
  | .cancelled accepted => { s with reports := s.reports ++ [.cancelled accepted] }
  | .probed probe => { s with reports := s.reports ++ [.probed probe] }
  | _ => s

end Server

/-- What is kept for the nodes. -/
def encodeStore (s : NodeStore) : Json :=
  .obj (s.entries.map fun e =>
    (e.1, .obj [("collected", .arr e.2.collected), ("count", .ofNat e.2.count)]))

/-- The status for an edit that does not apply. -/
def editStatus : EditError → Nat
  | .nodeNotFound _ | .edgeNotFound _ => 404
  | .duplicateNode _ | .duplicateEdge _ => 409
  | .danglingEdge .. | .invalidNode .. => 422

/-- The response to a run that does not begin. -/
def refuseRun (e : EngineError) : Response :=
  .failure (match e with | .runInProgress => 409 | .graphCycle _ => 422) e.message

/-- The world of a server. -/
abbrev ServerWorld := World Server

/-- The host of a run that its client waits for: nothing else happens meanwhile. -/
def Server.attentive (services : Services) : Host Server where
  services
  observe e w := { w with outside := w.outside.observe e }
  elapse time w := { w with now := time }

section

variable (w : ServerWorld)

/-- Put another workflow in place, if all its nodes are valid. -/
def replaceWorkflow (workflow : Workflow) : Response × ServerWorld :=
  match workflow.nodes.findSome? fun n =>
      match n.validate with
      | .ok () => none
      | .error e => some (EditError.invalidNode n.id e) with
  | some e => (.failure 422 e.message, w)
  | none =>
    let server := { w.outside with document := w.outside.document.replace workflow }
    (server.showDocument true, { w with outside := server })

/-- Edit the document. -/
def edit (command : EditCommand) : Response × ServerWorld :=
  match w.outside.document.apply command with
  | .error e => (.failure (editStatus e) e.message, w)
  | .ok (_, document) =>
    let server := { w.outside with document }
    (server.showDocument true, { w with outside := server })

/-- Go to another state of the document, if there is one. -/
def step (document : Option Document) : Response × ServerWorld :=
  let server := { w.outside with document := document.getD w.outside.document }
  (server.showDocument document.isSome, { w with outside := server })

/-- Start a run, or accept it. -/
def startRun (services : Services) (order : RunOrder) : Response × ServerWorld :=
  let request := order.request w.outside.document.workflow
  if order.wait then
    match execute (Server.attentive services) request w with
    | (.ok summary, w) => (.ok summary.encode, w)
    | (.error e, w) => (refuseRun e, w)
  else
    match w.engine.reserve, (Graph.ofWorkflow request.workflow).cycleNode? with
    | .error e, _ => (refuseRun e, w)
    | .ok _, some id => (refuseRun (.graphCycle id), w)
    | .ok engine, none =>
      (⟨202, .json (.obj [("status", .str "running")])⟩,
        { w with engine, outside := { w.outside with accepted := some request } })

/-- Ask the run that goes on to stop. -/
def cancelRun : Response × ServerWorld :=
  let (cancelled, engine) := w.engine.cancel
  (.ok (.obj [("cancelled", .bool cancelled)]), { w with engine })

/-- The state of the engine. -/
def showRun : Response :=
  .ok (.obj [("execution", w.engine.state.encode), ("nodeState", encodeStore w.engine.store)])

/-- Forget what is kept for a node and what runs have left at it. -/
def resetNode (id : String) : Response × ServerWorld :=
  match w.outside.document.setNodeState? id {} with
  | none => (.failure 404 (EditError.nodeNotFound id).message, w)
  | some document =>
    let (reset, engine) := w.engine.resetNode id
    (.ok (.obj [("reset", .bool reset)]), { w with engine, outside := { w.outside with document } })

/-- Take an action. -/
def act (services : Services) (r : Request) :
    Action → Except Rejection (Response × ServerWorld)
  | .showWorkflow => .ok (w.outside.showDocument false, w)
  | .replaceWorkflow => (r.content Workflow.decode).map (replaceWorkflow w)
  | .edit => (r.content EditCommand.decode).map (edit w)
  | .undo => .ok (step w w.outside.document.undo?)
  | .redo => .ok (step w w.outside.document.redo?)
  | .startRun => (r.content RunOrder.decode).map (startRun w services)
  | .cancelRun => .ok (cancelRun w)
  | .showRun => .ok (showRun w, w)
  | .resetNodes =>
    .ok (.ok (.obj [("reset", .bool true)]), w.modifyEngine (·.resetAll))
  | .resetNode segment =>
    match decodeSegment? segment with
    | some id => .ok (resetNode w id)
    | none => .error .badPath

/-- Serve a request. A request for the head of something gets no body. -/
def serve (services : Services) (r : Request) : Response × ServerWorld :=
  match Route.ofTarget? r.target with
  | none => (.bare 404, w)
  | some route =>
    let head := r.method == "HEAD"
    match route.action? (if head then "GET" else r.method) with
    | none => (.bare 405, w)
    | some action =>
      match act w services r action with
      | .error rejection => (rejection.response, w)
      | .ok (response, w) => (if head then response.withoutBody else response, w)

end

end Flowline.Api
