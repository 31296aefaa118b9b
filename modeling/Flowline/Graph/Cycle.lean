import Flowline.Graph.Reach

/-!
# Cycles

`Graph.cycleNode?` names a node on a cycle if there is one. A depth-first walk first lists the
nodes as it is finished with them. Gone through from the last to the first, each node has all its
predecessors before it unless there is a cycle; a predecessor that is not there yet lies on one.
-/

namespace Flowline

namespace Graph

/-- A depth-first walk: the nodes met, and the nodes it is finished with, the last one
first. -/
structure Walk where
  met : List String := []
  finished : List String := []

/-- Walk from the top of a stack until it is empty. A node stays on the stack while what lies
behind it is walked. The walk stops at a node with an edge to itself. -/
def walk (g : Graph) (w : Walk) (stack : List String) : Except String Walk :=
  match stack with
  | [] => .ok w
  | id :: rest =>
    if h : id ∈ g.ids ∧ w.met.contains id = false then
      have := length_unseen_cons_lt h.1 h.2
      let targets := (g.outgoing id).map (·.2.target)
      if targets.contains id then .error id
      else
        let met := id :: w.met
        g.walk { w with met } (targets.filter (!met.contains ·) ++ id :: rest)
    else
      let finished := if w.finished.contains id then w.finished else id :: w.finished
      g.walk { w with finished } rest
termination_by ((g.unseen w.met).length, stack.length)

/-- The first predecessor, in the order of the edges, that is neither among the nodes before nor
the node itself. -/
def missingPredecessor? (g : Graph) (before : List String) (id : String) : Option String :=
  ((g.incoming id).map (·.2.source)).find? fun source => !(id :: before).contains source

/-- Go through the nodes and find one that lacks a predecessor before it. -/
def firstMissing? (g : Graph) (before : List String) : List String → Option String
  | [] => none
  | id :: rest =>
    match g.missingPredecessor? before id with
    | some source => some source
    | none => g.firstMissing? (id :: before) rest

/-- A node on a cycle, if there is one. -/
def cycleNode? (g : Graph) : Option String :=
  let start (w : Walk) (id : String) := g.walk w (if w.met.contains id then [] else [id])
  match g.ids.foldlM start {} with
  | .error id => some id
  | .ok w => g.firstMissing? [] w.finished

end Graph

end Flowline
