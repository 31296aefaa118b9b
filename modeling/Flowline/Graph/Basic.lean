import Flowline.Workflow.Basic

/-!
# The graph of a workflow

A workflow may be half edited: nodes may lack an id or share one, and edges may lead nowhere. Its
`Graph` has the first node of each id that is not empty, and the edges between those nodes, which
keep their numbers in the workflow.
-/

namespace Flowline

/-- The elements without those that stand before them already. -/
def distinct {α : Type} [BEq α] (items : List α) : List α :=
  items.foldl (fun seen a => if seen.contains a then seen else seen ++ [a]) []

/-- The nodes and edges that count. -/
structure Graph where
  nodes : List Node
  edges : List (Nat × Edge)

namespace Graph

/-- The first node of each id that is not empty. -/
def namedNodes (nodes : List Node) : List Node :=
  nodes.foldl
    (fun kept n => if n.id = "" ∨ kept.any (·.id == n.id) then kept else kept ++ [n]) []

/-- The graph of a workflow. -/
def ofWorkflow (w : Workflow) : Graph :=
  let nodes := namedNodes w.nodes
  let known (id : String) : Bool := nodes.any (·.id == id)
  { nodes
    edges := (w.edges.zipIdx.map fun e => (e.2, e.1)).filter fun e =>
      known e.2.source && known e.2.target }

/-- The ids of the nodes, in document order. -/
def ids (g : Graph) : List String := g.nodes.map (·.id)

/-- The node with an id. -/
def node? (g : Graph) (id : String) : Option Node := g.nodes.find? (·.id == id)

/-- The edges out of a node, in order. -/
def outgoing (g : Graph) (id : String) : List (Nat × Edge) := g.edges.filter (·.2.source == id)

/-- The edges into a node, in order. -/
def incoming (g : Graph) (id : String) : List (Nat × Edge) := g.edges.filter (·.2.target == id)

/-- The targets of the edges out of a node, each once. -/
def next (g : Graph) (id : String) : List String :=
  distinct ((g.outgoing id).map (·.2.target))

/-- The sources of the edges into a node, each once. -/
def previous (g : Graph) (id : String) : List String :=
  distinct ((g.incoming id).map (·.2.source))

/-- The nodes without an edge into them. -/
def roots (g : Graph) : List String := g.ids.filter fun id => (g.incoming id).isEmpty

end Graph

end Flowline
