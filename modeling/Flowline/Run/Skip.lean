import Flowline.Run.Frame

/-!
# Skipping

A member of a frame is skipped when all its edges are settled and none is taken. That settles the
edges behind it as skipped too, so the skip spreads until no member is left that must be skipped.
-/

namespace Flowline

namespace Frame

/-- The members that are not settled. -/
def unsettled (f : Frame) : List String := f.members.filter fun id => !f.isSettled id

/-- The member must be skipped. -/
def mustSkip (p : Plane) (f : Frame) (id : String) : Bool :=
  !f.isSettled id && f.readiness p id == .skip

theorem length_unsettled_skip_lt {p : Plane} {f : Frame} {id : String} (mem : id ∈ f.members)
    (skips : f.mustSkip p id = true) :
    (f.skip p id).unsettled.length < f.unsettled.length := by
  have open_ : f.isSettled id = false := by
    simp only [mustSkip, Bool.and_eq_true, Bool.not_eq_true'] at skips
    exact skips.1
  have sub : (f.skip p id).unsettled = f.unsettled.filter (· != id) := by
    simp only [unsettled, skip, settleEdges, isSettled, List.filter_filter]
    congr 1
    funext x
    by_cases hx : x = id <;> simp [hx]
  rw [sub]
  refine List.length_filter_lt_length_iff_exists.2 ⟨id, ?_, by simp⟩
  simp [unsettled, mem, open_]

/-- Skip members until there is none that must be. -/
def skipAll (p : Plane) (f : Frame) : Frame :=
  match found : f.members.find? (f.mustSkip p) with
  | none => f
  | some id =>
    have := length_unsettled_skip_lt (List.mem_of_find?_eq_some found) (List.find?_some found)
    skipAll p (f.skip p id)
termination_by f.unsettled.length

end Frame

end Flowline
