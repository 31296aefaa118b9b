import Flowline.Proofs.Json.Entries
import Flowline.Proofs.Run.Region
import Flowline.Run.Execute

/-!
# The members of frames

A frame is made over candidates: all nodes, or the region of an iterator.  Its members are the
candidates that no candidate repeats; each other candidate is repeated by exactly one member, which
owns it in the frame.

* `Plane.mem_frameMembers`, `Plane.exists_owner`: who is a member, and who is not.
* `Frame.Shape`: what a frame over candidates looks like, and goes on to look like.
-/

namespace Flowline

/-- Candidates for a frame: with an iterator they have all that it repeats. -/
structure Graph.Scope (g : Graph) (candidates : List String) : Prop where
  nodup : candidates.Nodup
  known : candidates ⊆ g.ids
  closed : ∀ I ∈ candidates, ∀ id, g.Repeats I id → id ∈ candidates

/-- The elements of a list that are in a sublist are the sublist. -/
theorem filter_contains_of_sublist {short long : List String} (sub : short.Sublist long)
    (distinct : long.Nodup) : long.filter short.contains = short := by
  induction sub with
  | slnil => rfl
  | @cons short long a sub ih =>
      obtain ⟨new, distinct⟩ := List.nodup_cons.1 distinct
      have missing : a ∉ short := fun mem => new (sub.subset mem)
      rw [List.filter_cons_of_neg (by simpa using missing), ih distinct]
  | @cons_cons short long a sub ih =>
      obtain ⟨new, distinct⟩ := List.nodup_cons.1 distinct
      have rest : long.filter (a :: short).contains = long.filter short.contains := by
        refine List.filter_congr fun b mem => ?_
        have other : b ≠ a := ne_of_mem_of_not_mem mem new
        simp [other]
      rw [List.filter_cons_of_pos (by simp), rest, ih distinct]

namespace Plane

variable {g : Graph} {candidates : List String} {I O id : String}

theorem scope_ids (wf : g.WellFormed) : g.Scope g.ids where
  nodup := wf.ids
  known := fun _ mem => mem
  closed _ _ _ repeats := repeats.reaches.target_mem wf

theorem scope_regionOf (wf : g.WellFormed) (acyclic : g.Acyclic) (I : String) :
    g.Scope ((ofGraph g).regionOf I) where
  nodup := wf.ids.sublist (regionOf_sublist I)
  known := (regionOf_sublist I).subset
  closed J mem id inner := by
    rw [mem_regionOf wf acyclic] at mem ⊢
    exact mem.trans inner

theorem filter_regionOf (wf : g.WellFormed) (I : String) :
    g.ids.filter ((ofGraph g).regionOf I).contains = (ofGraph g).regionOf I :=
  filter_contains_of_sublist (regionOf_sublist I) wf.ids

/-- The members are the candidates that no candidate repeats. -/
theorem mem_frameMembers (wf : g.WellFormed) (acyclic : g.Acyclic) :
    id ∈ (ofGraph g).frameMembers candidates ↔
      id ∈ candidates ∧ ∀ I ∈ candidates, ¬ g.Repeats I id := by
  have repeated : id ∈ (candidates.filterMap (ofGraph g).region?).flatten ↔
      ∃ I ∈ candidates, g.Repeats I id := by
    simp only [List.mem_flatten, List.mem_filterMap, ← mem_regionOf wf acyclic, regionOf]
    constructor
    · rintro ⟨region, ⟨I, mem, found⟩, in_region⟩
      exact ⟨I, mem, by simpa [found] using in_region⟩
    · rintro ⟨I, mem, in_region⟩
      cases found : (ofGraph g).region? I with
      | none => simp [found] at in_region
      | some region => exact ⟨region, ⟨I, mem, found⟩, by simpa [found] using in_region⟩
  simp only [frameMembers, List.mem_filter, Bool.not_eq_true', ← Bool.not_eq_true,
    List.contains_iff_mem, repeated, not_exists, not_and]

theorem frameMembers_sublist : ((ofGraph g).frameMembers candidates).Sublist candidates :=
  List.filter_sublist

/-- A candidate is a member, or a member repeats it. -/
theorem exists_owner (wf : g.WellFormed) (acyclic : g.Acyclic) (mem : id ∈ candidates) :
    id ∈ (ofGraph g).frameMembers candidates ∨
      ∃ O ∈ (ofGraph g).frameMembers candidates, g.Repeats O id := by
  by_cases free : ∀ I ∈ candidates, ¬ g.Repeats I id
  · exact Or.inl ((mem_frameMembers wf acyclic).2 ⟨mem, free⟩)
  · push Not at free
    obtain ⟨I, I_mem, repeats⟩ := free
    -- The outermost candidate that repeats the node, by induction on the nodes before it.
    right
    induction h : (g.before I).length using Nat.strongRecOn generalizing I with
    | _ n ih =>
        by_cases outermost : ∀ J ∈ candidates, ¬ g.Repeats J I
        · exact ⟨I, (mem_frameMembers wf acyclic).2 ⟨I_mem, outermost⟩, repeats⟩
        · push Not at outermost
          obtain ⟨J, J_mem, outer⟩ := outermost
          have fewer := Graph.length_before_lt wf acyclic outer.reaches
          exact ih _ (h ▸ fewer) J J_mem (outer.trans repeats) rfl

/-- Two members do not repeat the same node. -/
theorem owner_unique (wf : g.WellFormed) (acyclic : g.Acyclic)
    (I_mem : I ∈ (ofGraph g).frameMembers candidates)
    (O_mem : O ∈ (ofGraph g).frameMembers candidates)
    (left : g.Repeats I id) (right : g.Repeats O id) : I = O := by
  rw [mem_frameMembers wf acyclic] at I_mem O_mem
  rcases left.nested right with same | inner | inner
  · exact same
  · exact absurd inner (O_mem.2 I I_mem.1)
  · exact absurd inner (I_mem.2 O O_mem.1)

/-- The nodes in the regions of members, each with the iterator of its region. -/
def owners (p : Plane) (members : List String) : Entries String :=
  members.flatMap fun I => (p.regionOf I).map fun node => (node, I)

theorem mem_owners (wf : g.WellFormed) (acyclic : g.Acyclic) {members : List String} :
    (id, O) ∈ (ofGraph g).owners members ↔ O ∈ members ∧ g.Repeats O id := by
  simp only [owners, List.mem_flatMap, List.mem_map, Prod.mk.injEq, ← mem_regionOf wf acyclic]
  constructor
  · rintro ⟨J, mem, node, in_region, rfl, rfl⟩
    exact ⟨mem, in_region⟩
  · rintro ⟨mem, in_region⟩
    exact ⟨O, mem, id, in_region, rfl, rfl⟩

/-- No node has two owners among the members of a frame. -/
theorem owners_single (wf : g.WellFormed) (acyclic : g.Acyclic) (id I O : String)
    (left : (id, I) ∈ (ofGraph g).owners ((ofGraph g).frameMembers candidates))
    (right : (id, O) ∈ (ofGraph g).owners ((ofGraph g).frameMembers candidates)) : I = O := by
  obtain ⟨I_mem, I_repeats⟩ := (mem_owners wf acyclic).1 left
  obtain ⟨O_mem, O_repeats⟩ := (mem_owners wf acyclic).1 right
  exact owner_unique wf acyclic I_mem O_mem I_repeats O_repeats

/-- The owner of a node in a frame is the member that repeats it. -/
theorem get?_nested_frame (wf : g.WellFormed) (acyclic : g.Acyclic) {seeded : List Nat}
    {scope : Entries Json} {iteration : Option (String × Nat)} :
    ((ofGraph g).frame candidates seeded scope iteration).nested.get? id = some O ↔
      O ∈ (ofGraph g).frameMembers candidates ∧ g.Repeats O id :=
  (Entries.get?_ofList_eq_some_iff (owners_single wf acyclic)).trans (mem_owners wf acyclic)

end Plane

/-- A frame over candidates, as it is made and as it stays. -/
structure Frame.Shape (g : Graph) (candidates : List String) (f : Frame) : Prop where
  scope : g.Scope candidates
  members : f.members = (Plane.ofGraph g).frameMembers candidates
  owner_iff : ∀ id O, f.nested.get? id = some O ↔ O ∈ f.members ∧ g.Repeats O id

namespace Frame.Shape

variable {g : Graph} {candidates : List String} {f f' : Frame} {id O : String}

theorem frame (wf : g.WellFormed) (acyclic : g.Acyclic) (scope : g.Scope candidates)
    (seeded : List Nat) (visible : Entries Json) (iteration : Option (String × Nat)) :
    Shape g candidates ((Plane.ofGraph g).frame candidates seeded visible iteration) where
  scope := scope
  members := rfl
  owner_iff _ _ := Plane.get?_nested_frame wf acyclic

/-- The frame of an iteration is a frame over the region of its iterator. -/
theorem iterationFrame (wf : g.WellFormed) (acyclic : g.Acyclic) (around : Frame)
    (iterator : String) (number : Nat) (payload : Json) :
    Shape g ((Plane.ofGraph g).regionOf iterator)
      ((Plane.ofGraph g).iterationFrame around iterator number payload) := by
  have made := Shape.frame wf acyclic (Plane.scope_regionOf wf acyclic iterator)
    (((Plane.ofGraph g).graph.outgoing iterator).map (·.1)) (around.scope.put iterator payload)
    (some (iterator, number))
  have same : g.ids.filter (((Plane.ofGraph g).region? iterator).getD []).contains =
      (Plane.ofGraph g).regionOf iterator := Plane.filter_regionOf wf iterator
  rw [← same] at made ⊢
  exact made

theorem of_eq (shape : Shape g candidates f) (members : f'.members = f.members)
    (nested : f'.nested = f.nested) : Shape g candidates f' where
  scope := shape.scope
  members := members.trans shape.members
  owner_iff := by
    rw [members, nested]
    exact shape.owner_iff

theorem nodup_members (shape : Shape g candidates f) : f.members.Nodup := by
  rw [shape.members]
  exact shape.scope.nodup.sublist Plane.frameMembers_sublist

theorem mem_candidates (shape : Shape g candidates f) (mem : id ∈ f.members) :
    id ∈ candidates := by
  rw [shape.members] at mem
  exact Plane.frameMembers_sublist.subset mem

theorem mem_ids (shape : Shape g candidates f) (mem : id ∈ f.members) : id ∈ g.ids :=
  shape.scope.known (shape.mem_candidates mem)

theorem not_repeats (wf : g.WellFormed) (acyclic : g.Acyclic) (shape : Shape g candidates f)
    (mem : id ∈ f.members) {I : String} (I_mem : I ∈ candidates) : ¬ g.Repeats I id := by
  rw [shape.members, Plane.mem_frameMembers wf acyclic] at mem
  exact mem.2 I I_mem

theorem mem_or_owned (wf : g.WellFormed) (acyclic : g.Acyclic) (shape : Shape g candidates f)
    (mem : id ∈ candidates) : id ∈ f.members ∨ ∃ O ∈ f.members, g.Repeats O id := by
  rw [shape.members]
  exact Plane.exists_owner wf acyclic mem

/-- A member has no owner in its frame. -/
theorem get?_nested_of_mem (wf : g.WellFormed) (acyclic : g.Acyclic)
    (shape : Shape g candidates f) (mem : id ∈ f.members) : f.nested.get? id = none := by
  cases found : f.nested.get? id with
  | none => rfl
  | some O =>
      obtain ⟨O_mem, repeats⟩ := (shape.owner_iff id O).1 found
      exact absurd repeats (shape.not_repeats wf acyclic mem (shape.mem_candidates O_mem))

/-- The region of a member has room among the candidates that are no members. -/
theorem length_regionOf_le (wf : g.WellFormed) (acyclic : g.Acyclic)
    (shape : Shape g candidates f) (O_mem : O ∈ f.members) :
    ((Plane.ofGraph g).regionOf O).length + f.members.length ≤ candidates.length := by
  rw [← List.length_append]
  refine (List.Nodup.subperm ?_ ?_).length_le
  · refine List.nodup_append.2 ⟨wf.ids.sublist (Plane.regionOf_sublist O), shape.nodup_members, ?_⟩
    rintro a in_region b b_mem rfl
    rw [Plane.mem_regionOf wf acyclic] at in_region
    exact shape.not_repeats wf acyclic b_mem (shape.mem_candidates O_mem) in_region
  · intro a mem
    rcases List.mem_append.1 mem with in_region | mem
    · rw [Plane.mem_regionOf wf acyclic] at in_region
      exact shape.scope.closed O (shape.mem_candidates O_mem) a in_region
    · exact shape.mem_candidates mem

end Frame.Shape

end Flowline
