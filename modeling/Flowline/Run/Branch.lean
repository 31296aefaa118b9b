import Flowline.Graph.Basic

/-!
# Branches

A condition that holds, or none of them, selects among the edges out of a node. If an edge carries
the number of a condition, edges go by those numbers, and the edges without one are for the case
that no condition holds. Otherwise the edges stand in the order of the conditions, and the edge
after the last condition is for that case.
-/

namespace Flowline

namespace Graph

/-- The edges that stand for an outcome: the number of a condition out of so many, or none. -/
def edgesFor (outgoing : List (Nat × Edge)) (index : Option Nat) (conditions : Nat) :
    List (Nat × Edge) :=
  if outgoing.any (·.2.branch?.isSome) then outgoing.filter (·.2.branch? == index)
  else (outgoing[index.getD conditions]?).toList

/-- The edges that an outcome selects. If none stands for it, a condition that holds selects none,
and the case that no condition holds selects the last one. -/
def selectBranch (outgoing : List (Nat × Edge)) (index : Option Nat) (conditions : Nat) :
    List (Nat × Edge) :=
  let selected := edgesFor outgoing index conditions
  if selected.isEmpty && index.isNone then outgoing.getLast?.toList else selected

end Graph

end Flowline
