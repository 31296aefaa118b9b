import Flowline.Proofs.Run.Frame
import Flowline.Run.Execute

/-!
# Sound frames

`Frame.Sound` is what holds of a frame between its moves while the run goes on: a member is settled
once, its edges inside the frame are settled when it is, and only iterators that are settled have a
region that waits.

* `Frame.Sound.skip`, `Frame.Sound.settleRan`, `Frame.Sound.settleRegion`: each move keeps a frame
  sound.
* `Frame.Sound.not_ahead_of_ready`, `Frame.Sound.not_ahead_of_regionReady`: what is ready has no
  predecessor that may still run.
* `Frame.Sound.exists_ready`: as long as something is unfinished, something is ready.
-/

namespace Flowline

/-- Where a frame stands in a run: the iterators around it with the numbers of their iterations,
the innermost first. -/
abbrev Place := List (String × Nat)

/-- The candidates of the frame at a place. -/
def Graph.candidatesAt (g : Graph) : Place → List String
  | [] => g.ids
  | (iterator, _) :: _ => (Plane.ofGraph g).regionOf iterator

/-- The members of the frame at a place. -/
def Graph.membersAt (g : Graph) (place : Place) : List String :=
  (Plane.ofGraph g).frameMembers (g.candidatesAt place)

namespace Frame

/-- The member is not settled, or its region waits to run. -/
def Unfinished (f : Frame) (id : String) : Prop := id ∈ f.members ∧ f.regionSettled id = false

/-- The node may still run in the frame: as a member, or in the region of a member. -/
def Ahead (g : Graph) (f : Frame) (id : String) : Prop :=
  (id ∈ f.members ∧ id ∉ f.settled) ∨ ∃ O, f.Unfinished O ∧ g.Repeats O id

/-- What holds of a frame between its moves. -/
structure Sound (g : Graph) (place : Place) (f : Frame) : Prop where
  shape : Shape g (g.candidatesAt place) f
  iteration : f.iteration = place.head?
  /-- The edges that count as taken come from outside. -/
  seeded : ∀ e ∈ g.edges, e.1 ∈ f.seeded → e.2.source ∉ g.candidatesAt place
  settled_sub : f.settled ⊆ f.members
  settled_nodup : f.settled.Nodup
  pending_nodup : (f.pending.map (·.iterator)).Nodup
  pending_settled : ∀ r ∈ f.pending, r.iterator ∈ f.settled
  edges : ∀ e ∈ g.edges, e.2.source ∈ f.members → e.2.target ∈ f.members →
    ((f.edges.lookup e.1).isSome ↔ e.2.source ∈ f.settled)

variable {g : Graph} {place : Place} {f : Frame} {id I O s : String}

theorem isSettled_iff : f.isSettled id = true ↔ id ∈ f.settled := by
  simp [isSettled]

theorem regionSettled_iff : f.regionSettled id = true ↔
    id ∈ f.settled ∧ ∀ r ∈ f.pending, r.iterator ≠ id := by
  simp [regionSettled, isSettled]

theorem unfinished_iff : f.Unfinished id ↔
    id ∈ f.members ∧ (id ∉ f.settled ∨ ∃ r ∈ f.pending, r.iterator = id) := by
  rw [Unfinished, ← Bool.not_eq_true, regionSettled_iff, not_and_or]
  simp only [ne_eq, not_forall, not_not, exists_prop]

/-! ## The edges of a frame -/

theorem lookup_map_append (edges : List Nat) (state : Nat → EdgeState)
    (rest : List (Nat × EdgeState)) (i : Nat) :
    ((edges.map fun e => (e, state e)) ++ rest).lookup i =
      if i ∈ edges then some (state i) else rest.lookup i := by
  induction edges with
  | nil => simp
  | cons e more ih =>
      rw [List.map_cons, List.cons_append, List.lookup_cons, ih]
      by_cases same : i = e
      · simp [same]
      · simp [same, beq_false_of_ne same]

theorem lookup_settleEdges (f : Frame) (edges : List Nat) (state : Nat → EdgeState) (i : Nat) :
    (f.settleEdges edges state).edges.lookup i =
      if i ∈ edges then some (state i) else f.edges.lookup i :=
  lookup_map_append edges state f.edges i

/-- An edge is within a frame if it comes from the node and leads to a member. -/
theorem mem_edgesWithin (wf : g.WellFormed) {e : Nat × Edge} (mem : e ∈ g.edges) :
    e.1 ∈ (Plane.ofGraph g).edgesWithin f id ↔ e.2.source = id ∧ e.2.target ∈ f.members := by
  simp only [Plane.edgesWithin, Plane.ofGraph, List.mem_map, List.mem_filter, Graph.mem_outgoing,
    List.contains_iff_mem]
  constructor
  · rintro ⟨d, ⟨⟨d_mem, from_id⟩, to_member⟩, same⟩
    rw [← wf.eq_of_number d_mem mem same]
    exact ⟨from_id, to_member⟩
  · rintro ⟨from_id, to_member⟩
    exact ⟨e, ⟨⟨mem, from_id⟩, to_member⟩, rfl⟩

/-! ## Readiness -/

theorem readinessOf_eq (verdicts : List EdgeVerdict) :
    readinessOf verdicts =
      if .open_ ∈ verdicts then .waiting
      else if (∀ v ∈ verdicts, v = .ignored) ∨ .settled .taken ∈ verdicts then .ready
      else .skip := by
  simp [readinessOf, List.isEmpty_iff]

theorem readinessOf_eq_ready_iff {verdicts : List EdgeVerdict} :
    readinessOf verdicts = .ready ↔
      .open_ ∉ verdicts ∧ ((∀ v ∈ verdicts, v = .ignored) ∨ .settled .taken ∈ verdicts) := by
  rw [readinessOf_eq]
  split
  · simp [*]
  · split <;> simp [*]

theorem readinessOf_eq_skip_iff {verdicts : List EdgeVerdict} :
    readinessOf verdicts = .skip ↔
      .open_ ∉ verdicts ∧ .settled .taken ∉ verdicts ∧ ∃ v ∈ verdicts, v ≠ .ignored := by
  rw [readinessOf_eq]
  split
  · simp [*]
  · split
    · next runs =>
        rcases runs with all | taken
        · simpa using fun _ _ v mem => all v mem
        · simp [taken]
    · next stays =>
        push Not at stays
        exact iff_of_true rfl ⟨‹_›, stays.2, stays.1⟩

theorem readinessOf_eq_waiting_iff {verdicts : List EdgeVerdict} :
    readinessOf verdicts = .waiting ↔ .open_ ∈ verdicts := by
  rw [readinessOf_eq]
  split
  · simp [*]
  · split <;> simp [*]

theorem readiness_ofGraph (f : Frame) (id : String) :
    f.readiness (Plane.ofGraph g) id =
      readinessOf ((g.incoming id).map fun e => f.verdict e.1 e.2) := rfl

/-- An edge is open as long as its source may still run in the frame. -/
theorem Sound.open_of_verdict (sound : f.Sound g place) {e : Nat × Edge} (edge : e ∈ g.edges)
    (target : e.2.target ∈ f.members) (waits : f.verdict e.1 e.2 = .open_) :
    ∃ u, f.Unfinished u ∧ g.InUnit u e.2.source := by
  unfold verdict at waits
  split at waits
  · cases waits
  · split at waits
    · next O owned =>
        obtain ⟨O_mem, repeats⟩ := (sound.shape.owner_iff _ O).1 owned
        split at waits
        · cases waits
        · next waits_region =>
            exact ⟨O, ⟨O_mem, by simpa using waits_region⟩, Or.inr repeats⟩
    · split at waits
      · next member =>
          have member : e.2.source ∈ f.members := by simpa using member
          split at waits
          · cases waits
          · next unsettled =>
              have fresh : e.2.source ∉ f.settled := by
                rw [← sound.edges e edge member target, unsettled]
                simp
              exact ⟨e.2.source, unfinished_iff.2 ⟨member, Or.inl fresh⟩, Or.inl rfl⟩
      · cases waits

theorem Sound.candidate_of_ahead (sound : f.Sound g place) (ahead : f.Ahead g id) :
    id ∈ g.candidatesAt place := by
  rcases ahead with ⟨member, -⟩ | ⟨O, ⟨O_mem, -⟩, repeats⟩
  · exact sound.shape.mem_candidates member
  · exact sound.shape.scope.closed O (sound.shape.mem_candidates O_mem) _ repeats

/-- An edge whose source may still run in the frame is open. -/
theorem Sound.verdict_of_ahead (wf : g.WellFormed) (acyclic : g.Acyclic)
    (sound : f.Sound g place) {e : Nat × Edge} (edge : e ∈ g.edges)
    (target : e.2.target ∈ f.members) (ahead : f.Ahead g e.2.source) :
    f.verdict e.1 e.2 = .open_ := by
  have candidate := sound.candidate_of_ahead ahead
  have unseeded : f.seeded.contains e.1 = false := by
    rw [← Bool.not_eq_true, List.contains_iff_mem]
    exact fun mem => sound.seeded e edge mem candidate
  unfold verdict
  rw [unseeded]
  rcases ahead with ⟨member, fresh⟩ | ⟨O, ⟨O_mem, waits⟩, repeats⟩
  · have unsettled : f.edges.lookup e.1 = none := by
      rw [← Option.not_isSome_iff_eq_none, sound.edges e edge member target]
      exact fresh
    simp [sound.shape.get?_nested_of_mem wf acyclic member, member, unsettled]
  · have owned := (sound.shape.owner_iff e.2.source O).2 ⟨O_mem, repeats⟩
    simp [owned, waits]

/-- A member that does not wait has no predecessor that may still run in the frame. -/
theorem Sound.not_ahead_of_ne_waiting (wf : g.WellFormed) (acyclic : g.Acyclic)
    (sound : f.Sound g place) (member : id ∈ f.members)
    (moves : f.readiness (Plane.ofGraph g) id ≠ .waiting) (adj : g.Adj s id) :
    ¬ f.Ahead g s := by
  intro ahead
  obtain ⟨e, edge, rfl, rfl⟩ := adj
  rw [readiness_ofGraph, ne_eq, readinessOf_eq_waiting_iff] at moves
  refine moves (List.mem_map.2 ⟨e, Graph.mem_incoming.2 ⟨edge, rfl⟩, ?_⟩)
  exact sound.verdict_of_ahead wf acyclic edge member ahead

/-- A member that is ready has no predecessor that may still run in the frame. -/
theorem Sound.not_ahead_of_ready (wf : g.WellFormed) (acyclic : g.Acyclic)
    (sound : f.Sound g place) (ready : id ∈ f.readyMembers (Plane.ofGraph g))
    (adj : g.Adj s id) : ¬ f.Ahead g s := by
  simp only [readyMembers, List.mem_filter, Bool.and_eq_true, beq_iff_eq] at ready
  obtain ⟨member, -, ready⟩ := ready
  exact sound.not_ahead_of_ne_waiting wf acyclic member (by simp [ready]) adj

/-- A region that is ready has no predecessor outside that may still run in the frame. -/
theorem Sound.not_ahead_of_regionReady (wf : g.WellFormed) (acyclic : g.Acyclic)
    (sound : f.Sound g place) (ready : f.regionReady (Plane.ofGraph g) I = true)
    (repeats : g.Repeats I id) (adj : g.Adj s id) (outside : ¬ g.InUnit I s) :
    ¬ f.Ahead g s := by
  intro ahead
  have in_region := (Plane.mem_regionOf wf acyclic).2 repeats
  obtain ⟨e, edge, rfl, rfl⟩ := adj
  unfold regionReady at ready
  cases found : (Plane.ofGraph g).region? I with
  | none => simp [Plane.regionOf, found] at in_region
  | some region =>
      have same : (Plane.ofGraph g).regionOf I = region := by simp [Plane.regionOf, found]
      rw [same] at in_region
      simp only [found, List.all_eq_true] at ready
      have verdict := ready _ in_region e (Graph.mem_incoming.2 ⟨edge, rfl⟩)
      obtain ⟨not_iterator, not_repeated⟩ := not_or.1 outside
      rw [← Plane.mem_regionOf wf acyclic, same] at not_repeated
      rcases ahead with ⟨member, fresh⟩ | ⟨O, ⟨O_mem, waits⟩, repeats⟩
      · simp [not_iterator, not_repeated, member, isSettled, fresh] at verdict
      · have owned := (sound.shape.owner_iff e.2.source O).2 ⟨O_mem, repeats⟩
        have stranger : e.2.source ∉ f.members := fun member => by
          rw [sound.shape.get?_nested_of_mem wf acyclic member] at owned
          cases owned
        simp [not_iterator, not_repeated, stranger, owned, waits] at verdict

/-! ## Progress -/

/-- What keeps a region from being ready is a predecessor outside that may still run, -/
theorem Sound.exists_ahead_of_not_regionReady (wf : g.WellFormed) (acyclic : g.Acyclic)
    (sound : f.Sound g place) (waits : f.regionReady (Plane.ofGraph g) I = false) :
    ∃ s m, f.Ahead g s ∧ g.Adj s m ∧ g.Repeats I m ∧ ¬ g.InUnit I s := by
  unfold regionReady at waits
  cases found : (Plane.ofGraph g).region? I with
  | none => simp [found] at waits
  | some region =>
      have same : (Plane.ofGraph g).regionOf I = region := by simp [Plane.regionOf, found]
      simp only [found, ← Bool.not_eq_true, List.all_eq_true, not_forall] at waits
      obtain ⟨m, in_region, e, mem, verdict⟩ := waits
      rw [← same, Plane.mem_regionOf wf acyclic] at in_region
      have adj := Graph.adj_of_mem_incoming mem
      split at verdict
      · simp at verdict
      · next outside =>
          have stranger : ¬ g.InUnit I e.2.source := by
            simpa [Graph.InUnit, ← same, Plane.mem_regionOf wf acyclic] using outside
          refine ⟨e.2.source, m, ?_, adj, in_region, stranger⟩
          split at verdict
          · next member =>
              have member : e.2.source ∈ f.members := by simpa using member
              exact Or.inl ⟨member, fun settled => verdict (isSettled_iff.2 settled)⟩
          · split at verdict
            · next O owned =>
                obtain ⟨O_mem, repeats⟩ := (sound.shape.owner_iff _ O).1 owned
                exact Or.inr ⟨O, ⟨O_mem, by simpa using verdict⟩, repeats⟩
            · simp at verdict

/-- so that something is unfinished with which it may run. -/
theorem Sound.unfinished_of_not_regionReady (wf : g.WellFormed) (acyclic : g.Acyclic)
    (sound : f.Sound g place) (waits : f.regionReady (Plane.ofGraph g) I = false) :
    ∃ u, f.Unfinished u ∧ ∃ s m, g.InUnit u s ∧ g.Adj s m ∧ g.Repeats I m ∧ ¬ g.InUnit I s := by
  obtain ⟨s, m, ahead, adj, in_region, outside⟩ :=
    sound.exists_ahead_of_not_regionReady wf acyclic waits
  rcases ahead with ⟨member, fresh⟩ | ⟨O, unfinished, repeats⟩
  · exact ⟨s, unfinished_iff.2 ⟨member, Or.inl fresh⟩, s, m, Or.inl rfl, adj, in_region, outside⟩
  · exact ⟨O, unfinished, s, m, Or.inr repeats, adj, in_region, outside⟩

/-- As long as something is unfinished and nothing must be skipped, something is ready: what comes
first in the order of weights. -/
theorem Sound.exists_ready (wf : g.WellFormed) (acyclic : g.Acyclic) (sound : f.Sound g place)
    (no_skip : ∀ id ∈ f.members, f.mustSkip (Plane.ofGraph g) id = false) {u : String}
    (unfinished : f.Unfinished u) :
    (∃ id, id ∈ f.readyMembers (Plane.ofGraph g)) ∨
      ∃ r ∈ f.pending, f.regionReady (Plane.ofGraph g) r.iterator = true := by
  induction h : g.weight u using Nat.strongRecOn generalizing u with
  | _ n ih =>
      subst h
      have member : u ∈ f.members := unfinished.1
      have candidate := sound.shape.mem_candidates member
      rcases unfinished_iff.1 unfinished with ⟨-, fresh | ⟨r, r_mem, rfl⟩⟩
      · have unsettled : f.isSettled u = false := by
          simpa [isSettled] using fresh
        cases state : f.readiness (Plane.ofGraph g) u with
        | ready => exact Or.inl ⟨u, by simp [readyMembers, member, unsettled, state]⟩
        | skip =>
            have free := no_skip u member
            simp [mustSkip, unsettled, state] at free
        | waiting =>
            rw [readiness_ofGraph, readinessOf_eq_waiting_iff] at state
            obtain ⟨e, mem, open_⟩ := List.mem_map.1 state
            obtain ⟨edge, rfl⟩ := Graph.mem_incoming.1 mem
            obtain ⟨v, v_unfinished, unit⟩ := sound.open_of_verdict edge member open_
            have adj : g.Adj e.2.source e.2.target := ⟨e, edge, rfl, rfl⟩
            have differ : v ≠ e.2.target := by
              rintro rfl
              exact acyclic _ (Graph.reaches_of_unit_adj unit adj)
            have apart : ¬ g.Repeats e.2.target v :=
              sound.shape.not_repeats wf acyclic v_unfinished.1 candidate
            exact ih _ (Graph.weight_lt wf acyclic differ apart unit adj (Or.inl rfl))
              v_unfinished rfl
      · by_cases ready : f.regionReady (Plane.ofGraph g) r.iterator = true
        · exact Or.inr ⟨r, r_mem, ready⟩
        · obtain ⟨v, v_unfinished, s, m, unit, adj, repeats, outside⟩ :=
            sound.unfinished_of_not_regionReady wf acyclic (by simpa using ready)
          have differ : v ≠ r.iterator := by
            rintro rfl
            exact outside unit
          have apart : ¬ g.Repeats r.iterator v :=
            sound.shape.not_repeats wf acyclic v_unfinished.1 candidate
          exact ih _ (Graph.weight_lt wf acyclic differ apart unit adj (Or.inr repeats))
            v_unfinished rfl

/-- The next move of a frame in which nothing must be skipped.  A region that runs is ready. -/
theorem Sound.move_cases (wf : g.WellFormed) (acyclic : g.Acyclic) (sound : f.Sound g place)
    (no_skip : ∀ id ∈ f.members, f.mustSkip (Plane.ofGraph g) id = false) :
    (f.move (Plane.ofGraph g) = .stop ∧ ∀ u, ¬ f.Unfinished u) ∨
      (∃ r ∈ f.pending, f.move (Plane.ofGraph g) = .region r ∧
        f.regionReady (Plane.ofGraph g) r.iterator = true) ∨
      (f.readyMembers (Plane.ofGraph g) ≠ [] ∧
        f.move (Plane.ofGraph g) = .wave (f.readyMembers (Plane.ofGraph g))) := by
  unfold move
  cases found : f.pending.find? fun r => f.regionReady (Plane.ofGraph g) r.iterator with
  | some r =>
      have ready := List.find?_some found
      exact Or.inr (Or.inl ⟨r, List.mem_of_find?_eq_some found, rfl, ready⟩)
  | none =>
      rw [List.find?_eq_none] at found
      cases ready : f.readyMembers (Plane.ofGraph g) with
      | cons id rest => exact Or.inr (Or.inr ⟨by simp, rfl⟩)
      | nil =>
          have finished : ∀ u, ¬ f.Unfinished u := by
            intro u unfinished
            rcases sound.exists_ready wf acyclic no_skip unfinished with ⟨id, mem⟩ | ⟨r, mem, is⟩
            · simp [ready] at mem
            · exact found r mem is
          cases waiting : f.pending with
          | nil => exact Or.inl ⟨rfl, finished⟩
          | cons r rest =>
              have r_mem : r ∈ f.pending := by simp [waiting]
              have settled := sound.pending_settled r r_mem
              exact absurd (unfinished_iff.2 ⟨sound.settled_sub settled, Or.inr ⟨r, r_mem, rfl⟩⟩)
                (finished r.iterator)

end Frame

end Flowline
