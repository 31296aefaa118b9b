import Flowline.Node.Error
import Flowline.Service
import Flowline.Store
import Flowline.Template
import Flowline.Workflow.Validate

/-!
# What an execution sees and leaves

A `NodeContext` is all that a node may read when it runs. A `Plan` is what it does then: either it
has its outcome at once, or it makes one call on a service and has its outcome when the reply is
there. Nothing is called before the plan is made, so a plan that has its outcome at once has
called nothing.
-/

namespace Flowline

/-- What a node reads. -/
structure NodeContext where
  nodeId : String
  /-- The outputs of the predecessors, by id. -/
  input : Json
  /-- The predecessors, in the order of the edges. -/
  sources : List String
  scope : Scope
  integrations : List Integration
  /-- What earlier runs have left at the nodes, by id. -/
  previous : Entries Json
  /-- The time limit, in milliseconds. -/
  timeoutMs : Nat
  directory : Directory

/-- How an execution goes on along the outgoing edges of its node. -/
inductive Propagation where
  /-- Along every edge. -/
  | all
  /-- Along the branch of a condition, or of none that holds, out of so many conditions. -/
  | branch (index : Option Nat) (conditions : Nat)
  /-- Along no edge. -/
  | suppress
  /-- Once for each payload. -/
  | iterate (payloads : List Json)

/-- What an execution leaves. -/
structure NodeOutput where
  data : Json
  propagation : Propagation := .all
  /-- The variables to set. -/
  «variables» : List (String × String) := []
  /-- The node has data and has failed all the same. -/
  failure : Option NodeError := none
  /-- The whole run is to stop. -/
  halt : Bool := false

/-- The outcome of an execution. -/
abbrev Outcome := Except NodeError NodeOutput

/-- What a node does. -/
inductive Plan where
  | done (outcome : Outcome)
  | http (request : HttpRequest) (finish : Except String HttpResponse → Outcome)
  | exec (request : CommandRequest) (finish : Except String CommandOutput → Outcome)
  | query (query : SqlQuery) (finish : Except String (List Json) → Outcome)

namespace Plan

/-- A plan, or the failure to make one. -/
def orFail : Except NodeError Plan → Plan
  | .ok plan => plan
  | .error e => done (.error e)

/-- The call that the plan makes. -/
def call? : Plan → Option ServiceCall
  | .done _ => none
  | .http request _ => some (.http request)
  | .exec request _ => some (.exec request)
  | .query q _ => some (.query q)

/-- The outcome that follows a reply. A reply of the wrong kind counts as a failed call. -/
def resume (reply : ServiceReply) : Plan → Outcome
  | .done outcome => outcome
  | .http _ finish => match reply with
    | .http response => finish (.ok response)
    | .failed message => finish (.error message)
    | _ => finish (.error "")
  | .exec _ finish => match reply with
    | .exec output => finish (.ok output)
    | .failed message => finish (.error message)
    | _ => finish (.error "")
  | .query _ finish => match reply with
    | .rows rows => finish (.ok rows)
    | .failed message => finish (.error message)
    | _ => finish (.error "")

/-- The outcome when a service treats the call so: its reply comes within the time limit or not at
all. -/
def outcomeAfter (treatment : Treatment) (timeoutMs : Nat) (plan : Plan) : Outcome :=
  if treatment.delayMs ≤ timeoutMs then plan.resume treatment.reply
  else .error (.external (.timedOut timeoutMs))

end Plan

namespace NodeContext

/-- The text of a template. -/
def render (ctx : NodeContext) (text : String) : Except NodeError String :=
  (Template.render text ctx.scope).mapError .ofQuery

/-- The value of a template. -/
def renderValue (ctx : NodeContext) (text : String) : Except NodeError Json :=
  (Template.renderValue text ctx.scope).mapError .ofQuery

/-- The output of the only predecessor, or all that comes in. -/
def primaryInput (ctx : NodeContext) : Json :=
  match ctx.sources with
  | [single] => (ctx.input.member? single).getD .null
  | _ => ctx.input

/-- A path, trimmed, unless it is missing or blank. -/
def givenPath? (path : Option String) : Option String := (path.map trim).filter (· != "")

/-- What a path denotes in the primary input; without a path that is the input itself. -/
def select (ctx : NodeContext) (path : Option String) : Except NodeError (Option Json) :=
  match givenPath? path with
  | some path => (query ctx.primaryInput path).mapError .ofQuery
  | none => .ok (some ctx.primaryInput)

/-- The enabled entries with a key, rendered. -/
def renderPairs (ctx : NodeContext) (pairs : List KeyValue) :
    Except NodeError (List (String × String)) :=
  (pairs.filter fun kv => kv.enabled && trim kv.key != "").mapM fun kv => do
    return (← ctx.render (trim kv.key), ← ctx.render kv.value)

end NodeContext

/-- The variable that a binding writes, with the trimmed text of what its path denotes in an
output. -/
def VariableBinding.writes (binding : Option VariableBinding) (output : Json)
    (defaultPath : String) : Except NodeError (List (String × String)) :=
  match binding with
  | none => .ok []
  | some b => do
    let name ← b.targetName
    let value ← (query output (b.path.getD defaultPath)).mapError .ofQuery
    return [(name, trim ((value.map Template.stringify).getD ""))]

end Flowline
