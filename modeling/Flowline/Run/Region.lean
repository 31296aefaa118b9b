import Flowline.Graph.Reach

/-!
# Regions

The nodes behind an iterator form its region, which runs once for each item. A node that can be
reached from two iterators of which neither can be reached from the other joins both loops, and
belongs to the region of neither.
-/

namespace Flowline

namespace Graph

/-- The iterators with the nodes behind them. -/
def iteratorReach (g : Graph) : Entries (List String) :=
  (g.nodes.filter (·.kind = .iterator)).map fun n => (n.id, g.descendants n.id)

/-- A node behind an iterator stays in its region unless it is also behind another iterator that
is unrelated to this one. -/
def staysInRegion (reach : Entries (List String)) (iterator : String) (below : List String)
    (node : String) : Bool :=
  reach.all fun other =>
    other.1 == iterator || !other.2.contains node || below.contains other.1 ||
      other.2.contains iterator

/-- The regions, by iterator, each in document order. -/
def regions (g : Graph) : Entries (List String) :=
  let reach := g.iteratorReach
  reach.map fun entry =>
    (entry.1, g.ids.filter fun id =>
      entry.2.contains id && staysInRegion reach entry.1 entry.2 id)

end Graph

end Flowline
