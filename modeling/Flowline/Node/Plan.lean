import Flowline.Node.Assertion
import Flowline.Node.Command
import Flowline.Node.Condition
import Flowline.Node.Database
import Flowline.Node.Feed
import Flowline.Node.Flow
import Flowline.Node.Http
import Flowline.Node.Prompt
import Flowline.Node.Transform

/-!
# What each node does

`Node.plan` validates a node again and makes the plan of its kind. Only collectors and counters
change what is kept for them, and only when they do not fail.
-/

namespace Flowline

/-- The plan that the settings make, and what is kept after it. -/
def NodeConfig.plan (config : NodeConfig) (ctx : NodeContext) (store : NodeStore) :
    Plan × NodeStore :=
  match config with
  | .http c => (c.plan ctx, store)
  | .command c => (c.plan ctx, store)
  | .database c => (c.plan ctx, store)
  | .parser c => (.done (c.outcome ctx), store)
  | .format c => (.done (c.outcome ctx), store)
  | .conditional c => (.done (c.outcome ctx), store)
  | .iterator c => (.done (c.outcome ctx), store)
  | .collector c => let (outcome, store) := c.outcome ctx store; (.done outcome, store)
  | .counter c => let (outcome, store) := c.outcome ctx store; (.done outcome, store)
  | .test c => (.done (c.outcome ctx), store)
  | .prompt c => (c.plan ctx, store)
  | .rss c => (c.plan ctx, store)

namespace Node

/-- The plan of a node, which fails at once if the node is not valid. -/
def plan (n : Node) (ctx : NodeContext) (store : NodeStore) : Plan × NodeStore :=
  match n.validate with
  | .ok () => n.config.plan ctx store
  | .error e => (.done (.error e), store)

/-- Execute a node by itself: its outcome, the call that it made, and what is kept after it. -/
def execute (services : Services) (n : Node) (ctx : NodeContext) (store : NodeStore) :
    Outcome × Option ServiceCall × NodeStore :=
  let (plan, store) := n.plan ctx store
  let outcome := match plan.call? with
    | some call => plan.outcomeAfter (services.treat call) ctx.timeoutMs
    | none => plan.resume (.failed "")
  (outcome, plan.call?, store)

/-- The time limit of a node, in milliseconds. -/
def timeoutMs (n : Node) (default : Nat) : Nat := n.config.timeoutMs?.getD default

end Node

end Flowline
