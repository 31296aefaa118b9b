import Flowline.Json.Basic

/-!
# What collectors and counters keep

A `NodeStore` keeps, by the id of a node, the values that a collector has gathered and the number
of executions that a counter has let through. Both outlive a run and end only with a reset.
-/

namespace Flowline

/-- What is kept for one node. -/
structure KeptState where
  collected : List Json := []
  count : Nat := 0

/-- What is kept for each node. -/
structure NodeStore where
  entries : Entries KeptState := []

/-- What a collector hands on: a batch, or nothing yet, with the number of values held. -/
inductive CollectOutcome where
  | emit (items : List Json)
  | pending (held : Nat)

/-- Whether a counter lets an execution through, with the count after it. -/
inductive CounterOutcome where
  | passed (count : Nat)
  | paused (count : Nat)

namespace NodeStore

/-- What is kept for a node, if anything is. -/
def get? (s : NodeStore) (id : String) : Option KeptState := s.entries.get? id

/-- What is kept for a node. -/
def kept (s : NodeStore) (id : String) : KeptState := (s.get? id).getD {}

/-- Keep something for a node. -/
def put (s : NodeStore) (id : String) (k : KeptState) : NodeStore := ⟨s.entries.put id k⟩

/-- Append the values that no value before them equals. -/
def appendNew (held : List Json) : List Json → List Json
  | [] => held
  | v :: rest => appendNew (if held.any (·.same v) then held else held ++ [v]) rest

/-- Add values to a collector. Without a batch size all held values are handed on and kept; with
one, they are handed on and given up as soon as there are enough. -/
def collect (s : NodeStore) (id : String) (values : List Json) (unique : Bool)
    (batchSize : Option Nat) : CollectOutcome × NodeStore :=
  let k := s.kept id
  let held := if unique then appendNew k.collected values else k.collected ++ values
  match batchSize with
  | none => (.emit held, s.put id { k with collected := held })
  | some size =>
    if size ≤ held.length then (.emit held, s.put id { k with collected := [] })
    else (.pending held.length, s.put id { k with collected := held })

/-- Count an execution unless the count has reached the limit. -/
def tryIncrement (s : NodeStore) (id : String) (limit : Nat) : CounterOutcome × NodeStore :=
  let k := s.kept id
  if limit ≤ k.count then (.paused k.count, s.put id k)
  else (.passed (k.count + 1), s.put id { k with count := k.count + 1 })

/-- Something is kept for the node. -/
def has (s : NodeStore) (id : String) : Bool := s.entries.has id

/-- Keep nothing for a node any more. -/
def reset (s : NodeStore) (id : String) : NodeStore := ⟨s.entries.remove id⟩

/-- Keep nothing. -/
def empty : NodeStore := {}

end NodeStore

end Flowline
