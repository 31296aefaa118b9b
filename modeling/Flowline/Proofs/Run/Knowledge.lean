import Flowline.Proofs.Run.Flat
import Flowline.Proofs.Run.Locality
import Mathlib.Data.List.Infix

/-!
# What a frame knows of executions

`Frame.Knows` says what a frame holds of the executions so far: the outputs that it shows are
theirs, an edge between two members is taken exactly if its source fired it, and what may still run
has not run yet.  With it the verdict of an edge can be read off the executions.

An edge within a frame counts as taken if it was fired.  An edge that comes out of the region of a
member is judged otherwise: it counts as taken as soon as its source was executed, whatever came of
it (`Graph.Carries`).  An edge that comes from outside the region around the frame does not count.

* `Frame.Knows.verdict_cases`: the verdict of an edge whose source is behind the frame.
* `Frame.Knows.ready_iff`: when a member whose predecessors are behind the frame is ready.
* `Frame.Knows.skipAll`: skipping keeps what a frame knows, and skips what is not admitted.
-/

namespace Flowline

variable {ω : Type}

/-! ## Executions seen from a place -/

namespace Graph

/-- The frame in which a node runs, seen from a place: the innermost one, at the place or around it,
that has the node among its candidates. -/
def homeOf (g : Graph) : Place → String → Place
  | [], _ => []
  | (iterator, k) :: outer, id =>
    if id ∈ (Plane.ofGraph g).regionOf iterator then (iterator, k) :: outer else g.homeOf outer id

/-- The node was executed in its frame, or in an iteration inside its frame. -/
def Executed (g : Graph) (ran : List Ran) (place : Place) (id : String) : Prop :=
  ∃ x ∈ ran, x.id = id ∧ g.homeOf place id <:+ x.place

/-- The source of the edge was executed there, and one of its executions went on along the edge. -/
def Fired (g : Graph) (ran : List Ran) (place : Place) (e : Nat × Edge) : Prop :=
  ∃ x ∈ ran, x.id = e.2.source ∧ g.homeOf place e.2.source <:+ x.place ∧
    e.1 ∈ g.takenEdges x.task.node x.ended.execution

/-- The node is the iterator around the frame at the place, or a candidate of the frame. -/
def Counts (g : Graph) (place : Place) (id : String) : Prop :=
  place.head?.map (·.1) = some id ∨ id ∈ g.candidatesAt place

/-- The node is in the region of a member of the frame at the place. -/
def Nested (g : Graph) (place : Place) (id : String) : Prop :=
  ∃ O ∈ g.membersAt place, g.Repeats O id

/-- The edge counts as taken in the frame at the place: it counts and was fired, or it comes out of
the region of a member and its source was executed at all. -/
def Carries (g : Graph) (ran : List Ran) (place : Place) (e : Nat × Edge) : Prop :=
  (g.Counts place e.2.source ∧ g.Fired ran place e) ∨
    (g.Nested place e.2.source ∧ g.Executed ran place e.2.source)

/-- The node has no edge into it, or one of them counts as taken. -/
def Admits (g : Graph) (ran : List Ran) (place : Place) (id : String) : Prop :=
  g.incoming id = [] ∨ ∃ e ∈ g.incoming id, g.Carries ran place e

variable {g : Graph} {place outer : Place} {I O id s : String} {k : Nat} {ran more : List Ran}
  {e : Nat × Edge}

theorem homeOf_of_candidate (candidate : id ∈ g.candidatesAt place) :
    g.homeOf place id = place := by
  cases place with
  | nil => rfl
  | cons iteration outer => exact if_pos candidate

theorem homeOf_cons_of_not_mem (outside : id ∉ (Plane.ofGraph g).regionOf I) :
    g.homeOf ((I, k) :: outer) id = g.homeOf outer id := if_neg outside

theorem Fired.executed (fired : g.Fired ran place e) : g.Executed ran place e.2.source := by
  obtain ⟨x, mem, same, inside, -⟩ := fired
  exact ⟨x, mem, same, inside⟩

theorem Executed.mono (executed : g.Executed ran place id) (sub : ran ⊆ more) :
    g.Executed more place id := by
  obtain ⟨x, mem, there⟩ := executed
  exact ⟨x, sub mem, there⟩

theorem Fired.mono (fired : g.Fired ran place e) (sub : ran ⊆ more) : g.Fired more place e := by
  obtain ⟨x, mem, there⟩ := fired
  exact ⟨x, sub mem, there⟩

theorem executed_append (strangers : ∀ x ∈ more, x.id ≠ id) :
    g.Executed (ran ++ more) place id ↔ g.Executed ran place id := by
  refine ⟨fun executed => ?_, fun executed => executed.mono (List.subset_append_left _ _)⟩
  obtain ⟨x, mem, same, inside⟩ := executed
  rcases List.mem_append.1 mem with old | new
  · exact ⟨x, old, same, inside⟩
  · exact absurd same (strangers x new)

theorem fired_append (strangers : ∀ x ∈ more, x.id ≠ e.2.source) :
    g.Fired (ran ++ more) place e ↔ g.Fired ran place e := by
  refine ⟨fun fired => ?_, fun fired => fired.mono (List.subset_append_left _ _)⟩
  obtain ⟨x, mem, same, there⟩ := fired
  rcases List.mem_append.1 mem with old | new
  · exact ⟨x, old, same, there⟩
  · exact absurd same (strangers x new)

/-- Whether a node is admitted depends on the executions of its predecessors only. -/
theorem admits_append (strangers : ∀ x ∈ more, ¬ g.Adj x.id id) :
    g.Admits (ran ++ more) place id ↔ g.Admits ran place id := by
  refine or_congr_right (exists_congr fun e => and_congr_right fun mem => ?_)
  have apart : ∀ x ∈ more, x.id ≠ e.2.source := fun x x_mem same =>
    strangers x x_mem (same ▸ adj_of_mem_incoming mem)
  rw [Carries, Carries, executed_append apart, fired_append apart]

/-- In a frame a node that has an edge into it has one that counts. -/
theorem exists_counts (wf : g.WellFormed) (acyclic : g.Acyclic)
    (candidate : id ∈ g.candidatesAt place) (mem : e ∈ g.incoming id) :
    ∃ d ∈ g.incoming id, g.Counts place d.2.source := by
  cases place with
  | nil => exact ⟨e, mem, Or.inr (wf.ends e (mem_incoming.1 mem).1).1⟩
  | cons iteration outer =>
      obtain ⟨I, k⟩ := iteration
      have repeats : g.Repeats I id := (Plane.mem_regionOf wf acyclic).1 candidate
      -- The last edge of a path from the iterator starts at the iterator or in its region.
      obtain ⟨s, path, adj⟩ := Relation.TransGen.tail'_iff.1 repeats.reaches
      obtain ⟨d, edge, rfl, rfl⟩ := adj
      refine ⟨d, mem_incoming.2 ⟨edge, rfl⟩, ?_⟩
      rcases Relation.reflTransGen_iff_eq_or_transGen.1 path with same | reaches
      · exact Or.inl (congrArg some same.symm)
      · have adj : g.Adj d.2.source d.2.target := ⟨d, edge, rfl, rfl⟩
        exact Or.inr ((Plane.mem_regionOf wf acyclic).2 (repeats.between reaches (.single adj)))

end Graph

/-! ## Outputs -/

/-- What a frame shows of an execution: its output, or what comes of the region that it left. -/
def Ran.Left (x : Ran) (value : Json) : Prop :=
  value = x.ended.execution.data ∨
    (Frame.regionLeft x.task.node x.ended.execution).isSome = true

/-- The entries are what executions left, and there is one for each execution in its home. -/
structure Shows (ran : List Ran) (home : String → Place) (entries : Entries Json) : Prop where
  left : ∀ v ∈ entries, ∃ x ∈ ran, x.id = v.1 ∧ home v.1 <:+ x.place ∧ x.Left v.2
  all : ∀ x ∈ ran, home x.id <:+ x.place → x.id ∈ entries.keys

/-- New executions leave new entries. -/
theorem Shows.putAll {ran more : List Ran} {home : String → Place} {m entries : Entries Json}
    (shows : Shows ran home m)
    (left : ∀ v ∈ entries, ∃ x ∈ ran ++ more, x.id = v.1 ∧ home v.1 <:+ x.place ∧ x.Left v.2)
    (all : ∀ x ∈ more, home x.id <:+ x.place → x.id ∈ entries.keys) :
    Shows (ran ++ more) home (m.putAll entries) where
  left v mem := by
    rcases Entries.mem_putAll mem with old | new
    · obtain ⟨x, x_mem, there⟩ := shows.left v old
      exact ⟨x, List.mem_append_left _ x_mem, there⟩
    · exact left v new
  all x mem inside := by
    rw [Entries.mem_keys_putAll]
    rcases List.mem_append.1 mem with old | new
    · exact Or.inl (shows.all x old inside)
    · exact Or.inr (all x new inside)

namespace Frame

variable {g : Graph} {place : Place} {f f' : Frame} {I O id s : String} {ran more : List Ran}
  {e : Nat × Edge}

/-- What a frame holds of the executions so far. -/
structure Knows (g : Graph) (place : Place) (ran : List Ran) (f : Frame) : Prop where
  scope : Shows ran (g.homeOf place) f.scope
  outputs : Shows ran (fun _ => place) f.outputs
  /-- The edges that count as taken from the beginning come from the iterator around the frame. -/
  seeded : ∀ e ∈ g.edges, (e.1 ∈ f.seeded ↔ place.head?.map (·.1) = some e.2.source)
  around : ∀ e ∈ g.edges, place.head?.map (·.1) = some e.2.source → g.Fired ran place e
  /-- An edge between members is taken exactly if it was fired. -/
  edges : ∀ e ∈ g.edges, e.2.source ∈ f.members → e.2.target ∈ f.members →
    (f.edges.lookup e.1 = some .taken ↔ g.Fired ran place e)
  fresh : ∀ id, f.Ahead g id → ¬ g.Executed ran place id
  behind : ∀ id ∈ f.settled, ∀ s, g.Adj s id → ¬ f.Ahead g s

theorem Knows.mem_keys_iff (knows : f.Knows g place ran) :
    id ∈ f.scope.keys ↔ g.Executed ran place id := by
  constructor
  · intro mem
    obtain ⟨v, v_mem, rfl⟩ := List.mem_map.1 mem
    obtain ⟨x, x_mem, same, inside, -⟩ := knows.scope.left v v_mem
    exact ⟨x, x_mem, same, inside⟩
  · rintro ⟨x, mem, rfl, inside⟩
    exact knows.scope.all x mem inside

/-! ## Verdicts -/

section

variable (wf : g.WellFormed) (acyclic : g.Acyclic)
include wf acyclic

/-- The verdict of an edge whose source is behind the frame. -/
theorem Knows.verdict_cases (knows : f.Knows g place ran) (sound : f.Sound g place)
    (edge : e ∈ g.edges) (target : e.2.target ∈ f.members) (behind : ¬ f.Ahead g e.2.source) :
    (¬ g.Counts place e.2.source ∧ f.verdict e.1 e.2 = .ignored) ∨
      (g.Counts place e.2.source ∧ g.Carries ran place e ∧ f.verdict e.1 e.2 = .settled .taken) ∨
      (g.Counts place e.2.source ∧ ¬ g.Carries ran place e ∧
        f.verdict e.1 e.2 = .settled .skipped) := by
  have members : f.members = g.membersAt place := sound.shape.members
  unfold verdict
  by_cases around : place.head?.map (·.1) = some e.2.source
  · have seeded := List.contains_iff_mem.2 ((knows.seeded e edge).2 around)
    rw [seeded]
    exact Or.inr (Or.inl ⟨Or.inl around, Or.inl ⟨Or.inl around, knows.around e edge around⟩, rfl⟩)
  · have unseeded : f.seeded.contains e.1 = false := by
      rw [← Bool.not_eq_true, List.contains_iff_mem]
      exact fun mem => around ((knows.seeded e edge).1 mem)
    rw [unseeded]
    by_cases candidate : e.2.source ∈ g.candidatesAt place
    · have counts : g.Counts place e.2.source := Or.inr candidate
      rcases sound.shape.mem_or_owned wf acyclic candidate with member | ⟨O, O_mem, repeats⟩
      · have settled : e.2.source ∈ f.settled := by
          by_contra unsettled
          exact behind (Or.inl ⟨member, unsettled⟩)
        have alone : ¬ g.Nested place e.2.source := fun ⟨O, O_mem, repeats⟩ =>
          sound.shape.not_repeats wf acyclic member
            (sound.shape.mem_candidates (members ▸ O_mem)) repeats
        have carries : g.Carries ran place e ↔ f.edges.lookup e.1 = some .taken := by
          rw [knows.edges e edge member target]
          exact ⟨fun h => (h.resolve_right fun out => alone out.1).2, fun h => Or.inl ⟨counts, h⟩⟩
        obtain ⟨state, found⟩ :=
          Option.isSome_iff_exists.1 ((sound.edges e edge member target).2 settled)
        rw [found] at carries
        simp only [sound.shape.get?_nested_of_mem wf acyclic member,
          List.contains_iff_mem.2 member, found]
        cases state with
        | taken => exact Or.inr (Or.inl ⟨counts, carries.2 rfl, rfl⟩)
        | skipped =>
            exact Or.inr (Or.inr ⟨counts, fun h => absurd (carries.1 h) (by simp), rfl⟩)
      · have region_over : f.regionSettled O = true := by
          by_contra waits
          exact behind (Or.inr ⟨O, ⟨O_mem, by simpa using waits⟩, repeats⟩)
        have carries : g.Carries ran place e ↔ f.scope.has e.2.source = true := by
          rw [Entries.has_eq_isSome, Entries.get?_isSome_iff, knows.mem_keys_iff]
          refine ⟨fun h => ?_, fun h => Or.inr ⟨⟨O, members ▸ O_mem, repeats⟩, h⟩⟩
          rcases h with ⟨-, fired⟩ | ⟨-, executed⟩
          · exact fired.executed
          · exact executed
        simp only [(sound.shape.owner_iff _ O).2 ⟨O_mem, repeats⟩, region_over]
        by_cases shown : f.scope.has e.2.source = true
        · rw [shown]
          exact Or.inr (Or.inl ⟨counts, carries.2 shown, rfl⟩)
        · refine Or.inr (Or.inr ⟨counts, fun h => shown (carries.1 h), ?_⟩)
          rw [Bool.not_eq_true] at shown
          rw [shown]
          rfl
    · have stranger : f.members.contains e.2.source = false := by
        rw [← Bool.not_eq_true, List.contains_iff_mem]
        exact fun mem => candidate (sound.shape.mem_candidates mem)
      have unowned : f.nested.get? e.2.source = none := by
        by_contra owned
        obtain ⟨O, owned⟩ := Option.ne_none_iff_exists'.1 owned
        obtain ⟨O_mem, repeats⟩ := (sound.shape.owner_iff _ O).1 owned
        exact candidate (sound.shape.scope.closed O (sound.shape.mem_candidates O_mem) _ repeats)
      simp only [unowned, stranger]
      exact Or.inl ⟨not_or.2 ⟨around, candidate⟩, rfl⟩

/-- A member whose predecessors are behind the frame is ready exactly if it is admitted. -/
theorem Knows.ready_iff (knows : f.Knows g place ran) (sound : f.Sound g place)
    (member : id ∈ f.members) (behind : ∀ s, g.Adj s id → ¬ f.Ahead g s) :
    f.readiness (Plane.ofGraph g) id = .ready ↔ g.Admits ran place id := by
  have verdicts (e : Nat × Edge) (mem : e ∈ g.incoming id) :=
    knows.verdict_cases wf acyclic sound (Graph.mem_incoming.1 mem).1
      ((Graph.mem_incoming.1 mem).2 ▸ member) (behind _ (Graph.adj_of_mem_incoming mem))
  have closed : EdgeVerdict.open_ ∉ (g.incoming id).map fun e => f.verdict e.1 e.2 := by
    intro mem
    obtain ⟨e, e_mem, open_⟩ := List.mem_map.1 mem
    rcases verdicts e e_mem with ⟨-, is⟩ | ⟨-, -, is⟩ | ⟨-, -, is⟩
    · exact absurd (open_.symm.trans is) (by simp)
    · exact absurd (open_.symm.trans is) (by simp)
    · exact absurd (open_.symm.trans is) (by simp)
  rw [readiness_ofGraph, readinessOf_eq_ready_iff, and_iff_right closed]
  refine or_congr ?_ ?_
  · constructor
    · intro ignored
      by_contra some_edge
      obtain ⟨e, mem⟩ := List.exists_mem_of_ne_nil _ some_edge
      obtain ⟨d, d_mem, counts⟩ :=
        Graph.exists_counts wf acyclic (sound.shape.mem_candidates member) mem
      have silent := ignored _ (List.mem_map_of_mem d_mem)
      rcases verdicts d d_mem with ⟨uncounted, -⟩ | ⟨-, -, is⟩ | ⟨-, -, is⟩
      · exact uncounted counts
      · exact absurd (is.symm.trans silent) (by simp)
      · exact absurd (is.symm.trans silent) (by simp)
    · intro none_in
      simp [none_in]
  · rw [List.mem_map]
    refine exists_congr fun e => and_congr_right fun mem => ?_
    rcases verdicts e mem with ⟨uncounted, is⟩ | ⟨-, carries, is⟩ | ⟨-, blocked, is⟩
    · have blocked : ¬ g.Carries ran place e := by
        rintro (⟨counts, -⟩ | ⟨⟨O, O_mem, repeats⟩, -⟩)
        · exact uncounted counts
        · have O_mem : O ∈ f.members := sound.shape.members ▸ O_mem
          exact uncounted (Or.inr
            (sound.shape.scope.closed O (sound.shape.mem_candidates O_mem) _ repeats))
      exact iff_of_false (by simp [is]) blocked
    · exact iff_of_true is carries
    · exact iff_of_false (by simp [is]) blocked

/-- A member that is skipped is not admitted. -/
theorem Knows.not_admits_of_skip (knows : f.Knows g place ran) (sound : f.Sound g place)
    (member : id ∈ f.members) (skips : f.readiness (Plane.ofGraph g) id = .skip) :
    ¬ g.Admits ran place id := by
  intro admits
  have behind (s : String) (adj : g.Adj s id) : ¬ f.Ahead g s :=
    sound.not_ahead_of_ne_waiting wf acyclic member (by simp [skips]) adj
  rw [(knows.ready_iff wf acyclic sound member behind).2 admits] at skips
  cases skips

/-! ## Skipping -/

theorem Knows.skip (knows : f.Knows g place ran) (sound : f.Sound g place)
    (member : id ∈ f.members) (unsettled : id ∉ f.settled)
    (skips : f.readiness (Plane.ofGraph g) id = .skip) :
    (f.skip (Plane.ofGraph g) id).Knows g place ran := by
  have follows : Follows f (f.skip (Plane.ofGraph g) id) :=
    ⟨rfl, rfl, List.subset_cons_self _ _, fun _ mem => Or.inl mem⟩
  refine ⟨knows.scope, knows.outputs, knows.seeded, knows.around, fun e edge source target => ?_,
    fun other ahead => knows.fresh other (follows.ahead ahead), fun other settled s adj ahead => ?_⟩
  · rw [lookup_skip wf edge]
    split
    · next both =>
        refine iff_of_false (by simp) fun fired => ?_
        exact knows.fresh id (Or.inl ⟨member, unsettled⟩) (both.1 ▸ fired.executed)
    · exact knows.edges e edge source target
  · rcases List.mem_cons.1 settled with rfl | settled
    · exact sound.not_ahead_of_ne_waiting wf acyclic member (by simp [skips]) adj
        (follows.ahead ahead)
    · exact knows.behind other settled s adj (follows.ahead ahead)

/-- Skipping keeps what a frame knows, and what is skipped is not admitted. -/
theorem Knows.skipAll (knows : f.Knows g place ran) (sound : f.Sound g place) :
    (f.skipAll (Plane.ofGraph g)).Knows g place ran ∧
      ∀ id ∈ (f.skipAll (Plane.ofGraph g)).settled, id ∉ f.settled → ¬ g.Admits ran place id := by
  have kept : (f.skipAll (Plane.ofGraph g)).Sound g place ∧
      (f.skipAll (Plane.ofGraph g)).Knows g place ran ∧
      ∀ id ∈ (f.skipAll (Plane.ofGraph g)).settled, id ∉ f.settled → ¬ g.Admits ran place id := by
    refine skipAll_induction (motive := fun f' => f'.Sound g place ∧ f'.Knows g place ran ∧
      ∀ id ∈ f'.settled, id ∉ f.settled → ¬ g.Admits ran place id) f
        ⟨sound, knows, fun id mem new => absurd mem new⟩ ?_
    rintro f' id ⟨sound', knows', refused⟩ member skips
    have unsettled := not_mem_settled_of_mustSkip skips
    have verdict : f'.readiness (Plane.ofGraph g) id = .skip := by
      simpa [mustSkip, isSettled, unsettled] using skips
    refine ⟨sound'.skip wf member unsettled, knows'.skip wf acyclic sound' member unsettled verdict,
      fun other mem new => ?_⟩
    rcases List.mem_cons.1 mem with rfl | mem
    · exact knows'.not_admits_of_skip wf acyclic sound' member verdict
    · exact refused other mem new
  exact kept.2

end

end Frame

end Flowline
