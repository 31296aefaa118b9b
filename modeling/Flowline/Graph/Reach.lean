import Flowline.Graph.Basic

/-!
# Reachability

`Graph.explore` follows edges from a list of nodes and collects all that it meets, and
`Graph.descendants` are the nodes that can be reached from one, without that one itself.
-/

namespace Flowline

namespace Graph

/-- The nodes of the graph that are not in a list. -/
def unseen (g : Graph) (seen : List String) : List String :=
  g.ids.filter fun id => !seen.contains id

theorem length_unseen_cons_lt {g : Graph} {seen : List String} {id : String}
    (hid : id ∈ g.ids) (hseen : seen.contains id = false) :
    (g.unseen (id :: seen)).length < (g.unseen seen).length := by
  have sub : g.unseen (id :: seen) = (g.unseen seen).filter (· != id) := by
    simp only [unseen, List.filter_filter]
    congr 1
    funext x
    by_cases hx : x = id <;> simp [hx]
  have mem : id ∈ g.unseen seen := by
    simp only [unseen, List.mem_filter, hseen]
    simp [hid]
  rw [sub]
  exact List.length_filter_lt_length_iff_exists.2 ⟨id, mem, by simp⟩

/-- All nodes that can be reached from those waiting, added to those seen. -/
def explore (g : Graph) (seen waiting : List String) : List String :=
  match waiting with
  | [] => seen
  | id :: rest =>
    if h : id ∈ g.ids ∧ seen.contains id = false then
      have := length_unseen_cons_lt h.1 h.2
      g.explore (id :: seen) (g.next id ++ rest)
    else g.explore seen rest
termination_by ((g.unseen seen).length, waiting.length)

/-- The nodes that can be reached from a node by at least one edge, without the node itself. -/
def descendants (g : Graph) (id : String) : List String :=
  if g.ids.contains id then (g.explore [id] (g.next id)).filter (· != id) else []

end Graph

end Flowline
