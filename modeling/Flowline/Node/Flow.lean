import Flowline.Json.Encode
import Flowline.Node.Context
import Flowline.Text.Search

/-!
# Iterators, collectors and counters

The nodes that decide how often the nodes behind them run. An iterator hands on a payload for each
item, a collector hands on what it has gathered, and a counter lets a number of executions through.
-/

namespace Flowline

namespace IteratorConfig

/-- The lines of a text that are not blank, trimmed. -/
def lines (text : String) : List Json :=
  (splitEach '\n' text.toList).filterMap fun line =>
    if trimChars line = [] then none else some (.str (String.ofList (trimChars line)))

/-- The items. What is no array has none. -/
def elements (c : IteratorConfig) (ctx : NodeContext) : Except NodeError (List Json) :=
  match c.mode with
  | .input => do
    match ← ctx.select c.path with
    | some (.arr items) => return items
    | _ => return []
  | .custom => (ctx.render c.items).map lines

/-- What the nodes behind the iterator get in place of its output, for one item. -/
def payload (total : Nat) (context : Json) (item : Json) (index : Nat) : Json :=
  .obj [("item", item), ("index", .ofNat index), ("total", .ofNat total), ("context", context)]

/-- Hand on a payload for each item. -/
def outcome (c : IteratorConfig) (ctx : NodeContext) : Outcome := do
  let items ← c.elements ctx
  let payloads := items.zipIdx.map fun e => payload items.length ctx.primaryInput e.1 e.2
  return {
    data := .obj [("items", .arr items), ("count", .ofNat items.length)]
    propagation := .iterate payloads }

end IteratorConfig

namespace CollectorConfig

/-- The values to add: the elements of an array, nothing for null, or the value itself. -/
def values : Option Json → List Json
  | some (.arr items) => items
  | some .null => []
  | some value => [value]
  | none => []

/-- The size of a batch, if the collector makes batches; at least one. -/
def effectiveBatch (c : CollectorConfig) : Option Nat :=
  if c.batch then some (max c.batchSize 1) else none

/-- Add to the collector, and hand on what it emits. -/
def outcome (c : CollectorConfig) (ctx : NodeContext) (store : NodeStore) :
    Outcome × NodeStore :=
  match ctx.select c.path with
  | .error e => (.error e, store)
  | .ok selected =>
    match store.collect ctx.nodeId (values selected) c.makeUnique c.effectiveBatch with
    | (.emit items, store) =>
      (.ok { data := .obj [("count", .ofNat items.length), ("items", .arr items)] }, store)
    | (.pending held, store) =>
      (.ok {
        data := .obj [("count", .ofNat held), ("batchSize", .ofNat c.batchSize),
          ("pending", .bool true)]
        propagation := .suppress }, store)

end CollectorConfig

namespace CounterConfig

/-- Count the execution, and let it through or not. -/
def outcome (c : CounterConfig) (ctx : NodeContext) (store : NodeStore) : Outcome × NodeStore :=
  match store.tryIncrement ctx.nodeId c.limit with
  | (.passed count, store) =>
    (.ok {
      data := .obj [("count", .ofNat count), ("limit", .ofNat c.limit),
        ("paused", .bool false), ("input", ctx.primaryInput)] }, store)
  | (.paused count, store) =>
    (.ok {
      data := .obj [("count", .ofNat count), ("limit", .ofNat c.limit), ("paused", .bool true)]
      propagation := .suppress }, store)

end CounterConfig

end Flowline
