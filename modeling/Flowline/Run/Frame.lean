import Flowline.Run.Region

/-!
# Frames

A frame is a set of nodes that run together: the top level of a run, or one iteration of a region.
Each edge inside a frame is settled when its source is, as taken or as skipped. A node is ready
when all its edges are settled and one of them is taken or it has none, and it is skipped when
none of them is taken.
-/

namespace Flowline

/-- How an edge was settled. -/
inductive EdgeState where
  | taken
  | skipped
deriving DecidableEq

/-- An iterator whose region waits to run, with its output and the payloads of its items. -/
structure PendingRegion where
  iterator : String
  data : Json
  payloads : List Json

/-- What all frames of a run share: the graph and its regions. -/
structure Plane where
  graph : Graph
  regions : Entries (List String)

/-- The graph with its regions. -/
def Plane.ofGraph (graph : Graph) : Plane := { graph, regions := graph.regions }

/-- Nodes that run together. -/
structure Frame where
  members : List String
  /-- The nodes in regions of members, with the iterator of the region. -/
  nested : Entries String
  /-- The edges out of the iterator around the frame, which count as taken. -/
  seeded : List Nat
  /-- The outputs that can be seen, by node. -/
  scope : Entries Json
  /-- The iterator around the frame, and the number of the iteration. -/
  iteration : Option (String × Nat)
  edges : List (Nat × EdgeState) := []
  /-- The outputs of this frame, by node. -/
  outputs : Entries Json := []
  /-- The members that were dispatched or skipped. -/
  settled : List String := []
  pending : List PendingRegion := []

/-- Whether a node can run. -/
inductive Readiness where
  | waiting
  | ready
  | skip
deriving DecidableEq

/-- What an edge tells about its target. -/
inductive EdgeVerdict where
  /-- The edge does not count in this frame. -/
  | ignored
  | open_
  | settled (state : EdgeState)
deriving DecidableEq

namespace Plane

/-- The region of an iterator, if the node is one. -/
def region? (p : Plane) (id : String) : Option (List String) := p.regions.get? id

/-- The candidates that are in the region of no candidate. -/
def frameMembers (p : Plane) (candidates : List String) : List String :=
  let nested := (candidates.filterMap p.region?).flatten
  candidates.filter fun id => !nested.contains id

/-- The frame of the candidates. -/
def frame (p : Plane) (candidates : List String) (seeded : List Nat) (scope : Entries Json)
    (iteration : Option (String × Nat)) : Frame :=
  let members := p.frameMembers candidates
  let nested := members.flatMap fun id =>
    ((p.region? id).getD []).map fun node => (node, id)
  { members, nested := Entries.ofList nested, seeded, scope, iteration }

/-- The edges out of a node to members of a frame. -/
def edgesWithin (p : Plane) (f : Frame) (id : String) : List Nat :=
  ((p.graph.outgoing id).filter fun e => f.members.contains e.2.target).map (·.1)

end Plane

namespace Frame

/-- The member is settled. -/
def isSettled (f : Frame) (id : String) : Bool := f.settled.contains id

/-- The iterator is settled, and its region has run or never will. -/
def regionSettled (f : Frame) (iterator : String) : Bool :=
  f.isSettled iterator && !f.pending.any (·.iterator == iterator)

/-- The verdict of an edge. An edge out of a region counts when the region has run, and is taken
if its source has left an output. An edge from outside was settled before the frame began. -/
def verdict (f : Frame) (index : Nat) (e : Edge) : EdgeVerdict :=
  if f.seeded.contains index then .settled .taken
  else match f.nested.get? e.source with
    | some owner =>
      if f.regionSettled owner then
        .settled (if f.scope.has e.source then .taken else .skipped)
      else .open_
    | none =>
      if f.members.contains e.source then
        match f.edges.lookup index with
        | some state => .settled state
        | none => .open_
      else .ignored

/-- Whether a node can run, by the verdicts of its edges. -/
def readinessOf (verdicts : List EdgeVerdict) : Readiness :=
  let counted := verdicts.filter (· ≠ .ignored)
  if counted.contains .open_ then .waiting
  else if counted.isEmpty || counted.contains (.settled .taken) then .ready
  else .skip

/-- Whether a member can run. -/
def readiness (p : Plane) (f : Frame) (id : String) : Readiness :=
  readinessOf ((p.graph.incoming id).map fun e => f.verdict e.1 e.2)

/-- The members that are not settled and can run, or that must be skipped. -/
def membersThatAre (p : Plane) (f : Frame) (r : Readiness) : List String :=
  f.members.filter fun id => !f.isSettled id && f.readiness p id = r

/-- Settle edges. -/
def settleEdges (f : Frame) (edges : List Nat) (state : Nat → EdgeState) : Frame :=
  { f with edges := edges.map (fun e => (e, state e)) ++ f.edges }

/-- Settle a member as skipped, and its edges with it. -/
def skip (p : Plane) (f : Frame) (id : String) : Frame :=
  ({ f with settled := id :: f.settled }).settleEdges (p.edgesWithin f id) fun _ => .skipped

/-- Every predecessor of the region from outside it is settled. -/
def regionReady (p : Plane) (f : Frame) (iterator : String) : Bool :=
  match p.region? iterator with
  | none => true
  | some region =>
    region.all fun member =>
      (p.graph.incoming member).all fun e =>
        let source := e.2.source
        if source == iterator || region.contains source then true
        else if f.members.contains source then f.isSettled source
        else match f.nested.get? source with
          | some owner => f.regionSettled owner
          | none => true

/-- The edge brings the output of its source to its target. -/
def isActive (f : Frame) (index : Nat) (e : Edge) : Bool :=
  f.seeded.contains index || !f.members.contains e.source ||
    f.edges.lookup index == some .taken

/-- What comes into a node: the outputs of its active predecessors, each once, in the order of the
edges. -/
def gather (p : Plane) (f : Frame) (id : String) : Entries Json :=
  (p.graph.incoming id).foldl
    (fun input e =>
      if f.isActive e.1 e.2 && !input.has e.2.source then
        match f.scope.get? e.2.source with
        | some output => input.put e.2.source output
        | none => input
      else input)
    []

/-- Make an output visible. -/
def addOutput (f : Frame) (id : String) (value : Json) : Frame :=
  { f with scope := f.scope.put id value, outputs := f.outputs.put id value }

end Frame

end Flowline
