import Flowline.Proofs.Run.History
import Mathlib.Data.List.Permutation

/-!
# Regions lie in each other like brackets

In an acyclic graph two regions are disjoint, or one of the two iterators lies in the region of the
other and its region with it.  A region is convex: a path from its iterator to one of its nodes does
not leave it.

For frames this means that each candidate is a member or has exactly one owner among the members, so
the order in which a frame writes its owners down does not matter.

* `Graph.Repeats.of_chain`: what lies on a path to a repeated node.
* `Graph.laminarRegions_ofWorkflow`: all of this for any acyclic workflow.
-/

namespace Flowline

/-! ## Paths -/

/-- All nodes on a path from an iterator, or from a node behind it, to a node that it repeats are
repeated, except for the first. -/
theorem Graph.Repeats.of_chain {g : Graph} {I id : String} (repeats : g.Repeats I id)
    {start : String} {path : List String} (from_iterator : start = I ∨ g.Reaches I start)
    (chain : (start :: path).IsChain g.Adj) (last : path.getLast? = some id) :
    ∀ m ∈ path, g.Repeats I m := by
  induction path generalizing start with
  | nil => cases last
  | cons next rest ih =>
      obtain ⟨edge, chain⟩ := List.isChain_cons_cons.1 chain
      have reaches : g.Reaches I next := by
        rcases from_iterator with rfl | before
        · exact .single edge
        · exact before.tail edge
      cases rest with
      | nil =>
          cases last
          intro m mem
          rw [List.mem_singleton.1 mem]
          exact repeats
      | cons further rest =>
          rw [List.getLast?_cons_cons] at last
          have later := ih (Or.inr reaches) chain last
          have onward : g.Adj next further := (List.isChain_cons_cons.1 chain).1
          intro m mem
          rcases List.mem_cons.1 mem with rfl | mem
          · exact (later further List.mem_cons_self).between reaches (.single onward)
          · exact later m mem

/-! ## Frames that are built -/

/-- A run builds the frame over the candidates: the frame over all nodes, or a frame over the region
of an iterator for one of its payloads. -/
inductive Graph.Builds (g : Graph) : List String → Frame → Prop where
  | top : g.Builds g.ids g.topFrame
  | iteration (around : Frame) (iterator : String) (number : Nat) (payload : Json) :
      g.Builds ((Plane.ofGraph g).regionOf iterator)
        ((Plane.ofGraph g).iterationFrame around iterator number payload)

namespace Graph.Builds

variable {g : Graph} {candidates : List String} {f : Frame} {id O : String}

/-- A frame that is built is a frame over its candidates. -/
theorem exists_eq (wf : g.WellFormed) (builds : g.Builds candidates f) :
    ∃ seeded scope iteration,
      f = (Plane.ofGraph g).frame candidates seeded scope iteration := by
  cases builds with
  | top => exact ⟨[], [], none, rfl⟩
  | iteration around iterator number payload =>
      have same : g.ids.filter (((Plane.ofGraph g).region? iterator).getD []).contains =
          (Plane.ofGraph g).regionOf iterator := Plane.filter_regionOf wf iterator
      refine ⟨((Plane.ofGraph g).graph.outgoing iterator).map (·.1),
        around.scope.put iterator payload, some (iterator, number), ?_⟩
      rw [← same]
      rfl

theorem shape (wf : g.WellFormed) (acyclic : g.Acyclic) (builds : g.Builds candidates f) :
    f.Shape g candidates := by
  cases builds with
  | top => exact .frame wf acyclic (Plane.scope_ids wf) [] [] none
  | iteration around iterator number payload =>
      exact .iterationFrame wf acyclic around iterator number payload

variable (wf : g.WellFormed) (acyclic : g.Acyclic)
include wf acyclic

/-- A candidate that is no member is in the region of exactly one member. -/
theorem existsUnique_owner (builds : g.Builds candidates f) (candidate : id ∈ candidates)
    (stranger : id ∉ f.members) : ∃! O, O ∈ f.members ∧ id ∈ (Plane.ofGraph g).regionOf O := by
  have shape := builds.shape wf acyclic
  simp only [Plane.mem_regionOf wf acyclic]
  rcases shape.mem_or_owned wf acyclic candidate with member | ⟨O, O_mem, repeats⟩
  · exact absurd member stranger
  · refine ⟨O, ⟨O_mem, repeats⟩, ?_⟩
    rintro I ⟨I_mem, also⟩
    rw [shape.members] at I_mem O_mem
    exact Plane.owner_unique wf acyclic I_mem O_mem also repeats

/-- The order in which the owners are written down does not matter. -/
theorem get?_nested_perm (builds : g.Builds candidates f) {owners : Entries String}
    (perm : owners.Perm ((Plane.ofGraph g).owners f.members)) (id : String) :
    (Entries.ofList owners).get? id = f.nested.get? id := by
  obtain ⟨seeded, scope, iteration, rfl⟩ := builds.exists_eq wf
  exact Entries.get?_ofList_perm perm (Plane.owners_single wf acyclic)

end Graph.Builds

section

variable {ω : Type} {h : Host ω} {request : RunRequest} {g : Graph}

theorem builds_of_mem_iterationEvents {around : Frame} {I : String} {place : Place}
    {runChild : Frame → Ongoing ω → Frame × Ongoing ω}
    {childEvents : Place → Frame → Ongoing ω → List Event}
    (inner : ∀ place f s e, e ∈ childEvents place f s → ∀ child, e.what = .entered child →
      g.Builds (g.candidatesAt e.place) child)
    {number : Nat} {payloads : List Json} {s : Ongoing ω} {e : Event} {child : Frame}
    (mem : e ∈ iterationEvents (request.plan g) runChild childEvents around I place number payloads
      s) (entered : e.what = .entered child) : g.Builds (g.candidatesAt e.place) child := by
  induction payloads generalizing number s with
  | nil => cases mem
  | cons payload rest ih =>
      unfold iterationEvents at mem
      split at mem
      · cases mem
      · rcases List.mem_append.1 mem with first | later
        · rcases List.mem_cons.1 first with rfl | deeper
          · cases entered
            exact .iteration around I number payload
          · exact inner _ _ _ e deeper child entered
        · exact ih later

/-- The frames that a run enters are frames that are built, over the candidates of their place. -/
theorem builds_of_mem_moveEvents {moves : Nat} {place : Place} {f child : Frame} {s : Ongoing ω}
    {e : Event} (mem : e ∈ moveEvents h (request.plan g) moves place f s)
    (entered : e.what = .entered child) : g.Builds (g.candidatesAt e.place) child := by
  induction moves generalizing place f s e child with
  | zero => cases mem
  | succ moves ih =>
      unfold moveEvents at mem
      split at mem
      · cases mem
      · rcases List.mem_cons.1 mem with rfl | mem
        · cases entered
        · split at mem
          · rw [List.mem_singleton.1 mem] at entered
            cases entered
          · rcases List.mem_cons.1 mem with rfl | mem
            · cases entered
            · rcases List.mem_append.1 mem with inside | mem
              · exact builds_of_mem_iterationEvents
                  (fun _ _ _ _ deeper _ also => ih deeper also) inside entered
              · rcases List.mem_cons.1 mem with rfl | later
                · cases entered
                · exact ih later entered
          · rcases List.mem_append.1 mem with waved | later
            · rcases List.mem_cons.1 waved with rfl | settled
              · cases entered
              · obtain ⟨r, -, rfl⟩ := List.mem_map.1 settled
                cases entered
            · exact ih later entered

theorem builds_of_mem_runEvents {w : World ω} {place : Place} {f : Frame}
    (mem : ⟨place, .entered f⟩ ∈ runEvents h request g w) :
    g.Builds (g.candidatesAt place) f := by
  rcases List.mem_cons.1 mem with first | later
  · cases first
    exact .top
  · exact builds_of_mem_moveEvents later rfl

end

/-! ## The family of regions -/

/-- Regions that meet are nested, with their iterators. -/
theorem Plane.disjoint_or_nested {g : Graph} {I J : String} (wf : g.WellFormed)
    (acyclic : g.Acyclic) (differ : I ≠ J) :
    ((ofGraph g).regionOf I).Disjoint ((ofGraph g).regionOf J) ∨
      (J ∈ (ofGraph g).regionOf I ∧ (ofGraph g).regionOf J ⊆ (ofGraph g).regionOf I) ∨
      (I ∈ (ofGraph g).regionOf J ∧ (ofGraph g).regionOf I ⊆ (ofGraph g).regionOf J) := by
  have inside {outer inner : String} (repeats : g.Repeats outer inner) :
      inner ∈ (ofGraph g).regionOf outer ∧
        (ofGraph g).regionOf inner ⊆ (ofGraph g).regionOf outer := by
    refine ⟨(mem_regionOf wf acyclic).2 repeats, fun id mem => ?_⟩
    rw [mem_regionOf wf acyclic] at mem ⊢
    exact repeats.trans mem
  by_cases meet : ∃ id, g.Repeats I id ∧ g.Repeats J id
  · obtain ⟨id, left, right⟩ := meet
    rcases left.nested right with same | inner | inner
    · exact absurd same differ
    · exact Or.inr (Or.inl (inside inner))
    · exact Or.inr (Or.inr (inside inner))
  · refine Or.inl fun id left right => meet ⟨id, ?_, ?_⟩
    · exact (mem_regionOf wf acyclic).1 left
    · exact (mem_regionOf wf acyclic).1 right

/-- The regions of a graph form a laminar and convex family, and the frames over them know one owner
for each node that they do not have as a member. -/
structure Graph.LaminarRegions (g : Graph) : Prop where
  /-- Two regions are disjoint, or one lies in the other, with its iterator. -/
  nested : ∀ I J, I ≠ J →
    ((Plane.ofGraph g).regionOf I).Disjoint ((Plane.ofGraph g).regionOf J) ∨
      (J ∈ (Plane.ofGraph g).regionOf I ∧
        (Plane.ofGraph g).regionOf J ⊆ (Plane.ofGraph g).regionOf I) ∨
      (I ∈ (Plane.ofGraph g).regionOf J ∧
        (Plane.ofGraph g).regionOf I ⊆ (Plane.ofGraph g).regionOf J)
  /-- A path to a node of a region stays inside after its first node. -/
  convex : ∀ I path id, (I :: path).IsChain g.Adj → path.getLast? = some id →
    id ∈ (Plane.ofGraph g).regionOf I → path ⊆ (Plane.ofGraph g).regionOf I
  irreflexive : ∀ I, I ∉ (Plane.ofGraph g).regionOf I
  /-- All frames that a run enters are built over the candidates of their place. -/
  built : ∀ (ω : Type) (h : Host ω) (request : RunRequest) (w : World ω) place f,
    ⟨place, .entered f⟩ ∈ runEvents h request g w → g.Builds (g.candidatesAt place) f
  members : ∀ candidates f, g.Builds candidates f → f.members ⊆ candidates
  /-- A candidate is in the region of no member if it is a member itself, else of exactly one. -/
  owner : ∀ candidates f, g.Builds candidates f → ∀ id ∈ candidates,
    (id ∈ f.members ∧ ∀ O ∈ f.members, id ∉ (Plane.ofGraph g).regionOf O) ∨
      (id ∉ f.members ∧ ∃! O, O ∈ f.members ∧ id ∈ (Plane.ofGraph g).regionOf O)
  /-- The frame knows the owners, in whatever order they were written down. -/
  known : ∀ candidates f, g.Builds candidates f →
    (∀ id O, f.nested.get? id = some O ↔ O ∈ f.members ∧ id ∈ (Plane.ofGraph g).regionOf O) ∧
      ∀ owners : Entries String, owners.Perm ((Plane.ofGraph g).owners f.members) →
        ∀ id, (Entries.ofList owners).get? id = f.nested.get? id

/-- **The regions of an acyclic workflow are laminar and convex.**  So in each frame that a run
builds every candidate is a member or has exactly one owner among the members, whatever the order
in which the owners are written down. -/
theorem Graph.laminarRegions_ofWorkflow (w : Workflow) (acyclic : (ofWorkflow w).Acyclic) :
    (ofWorkflow w).LaminarRegions := by
  have wf : (ofWorkflow w).WellFormed := wellFormed_ofWorkflow w
  refine ⟨fun I J differ => Plane.disjoint_or_nested wf acyclic differ, ?_, ?_,
    fun ω h request start place f entered => builds_of_mem_runEvents entered, ?_, ?_, ?_⟩
  · intro I path id chain last mem m m_mem
    rw [Plane.mem_regionOf wf acyclic] at mem ⊢
    exact mem.of_chain (Or.inl rfl) chain last m m_mem
  · intro I mem
    exact ((Plane.mem_regionOf wf acyclic).1 mem).ne acyclic rfl
  · intro candidates f builds id member
    exact (builds.shape wf acyclic).mem_candidates member
  · intro candidates f builds id candidate
    have shape := builds.shape wf acyclic
    by_cases member : id ∈ f.members
    · refine Or.inl ⟨member, fun O O_mem in_region => ?_⟩
      rw [Plane.mem_regionOf wf acyclic] at in_region
      exact shape.not_repeats wf acyclic member (shape.mem_candidates O_mem) in_region
    · exact Or.inr ⟨member, builds.existsUnique_owner wf acyclic candidate member⟩
  · intro candidates f builds
    refine ⟨fun id O => ?_, fun owners perm id => builds.get?_nested_perm wf acyclic perm id⟩
    rw [(builds.shape wf acyclic).owner_iff, Plane.mem_regionOf wf acyclic]

/-- A loop in a loop, and another loop that joins the first one. -/
def joinedLoops : Workflow :=
  { nodes := [{ id := "i", config := .iterator {} }, { id := "ii", config := .iterator {} },
      { id := "iii", config := .counter {} }, { id := "o", config := .iterator {} },
      { id := "join", config := .counter {} }]
    edges := [{ source := "i", target := "ii" }, { source := "ii", target := "iii" },
      { source := "i", target := "join" }, { source := "o", target := "join" }] }

theorem Graph.laminarRegions_joinedLoops :
    (ofWorkflow joinedLoops).Acyclic ∧
      (Plane.ofGraph (ofWorkflow joinedLoops)).regions =
        [("i", ["ii", "iii"]), ("ii", ["iii"]), ("o", [])] ∧
      (ofWorkflow joinedLoops).LaminarRegions := by
  have acyclic : (ofWorkflow joinedLoops).Acyclic := acyclic_of_rank String.length (by decide)
  exact ⟨acyclic, by cbv, laminarRegions_ofWorkflow joinedLoops acyclic⟩

end Flowline
