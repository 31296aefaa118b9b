import Mathlib
import Flowline.Proofs.Api.Host
import Flowline.Proofs.Run.Flat

/-!
# What a run without iterators computes

`Graph.Solves` are the equations that say which nodes run and which edges are taken, given what each
node comes to.  In an acyclic graph they have at most one solution, and a run that is not stopped
computes it.

* `Graph.Solves.unique`: two solutions are the same.
* `computes_runEvents`: a run executes the nodes of the solution, each once and with the outputs of
  its taken predecessors, and skips the others.
-/

namespace Flowline

open Api

variable {ω : Type}

/-- The propagation goes on along an edge, of those out of the node. -/
def Propagation.Covers (outgoing : List (Nat × Edge)) (e : Nat × Edge) : Propagation → Prop
  | .all | .iterate _ => True
  | .suppress => False
  | .branch index conditions => e ∈ Graph.selectBranch outgoing index conditions

namespace Graph

/-- Which nodes run and which edges are taken, given what each node comes to. -/
structure Solves (g : Graph) (outcome : String → Execution) (executed : String → Bool)
    (taken : Nat × Edge → Bool) : Prop where
  /-- A node runs if it has no edge into it or one of them is taken. -/
  nodes : ∀ id ∈ g.ids, executed id = true ↔
    g.incoming id = [] ∨ ∃ e ∈ g.incoming id, taken e = true
  /-- An edge is taken if its source runs, does not fail or goes on all the same, and goes on along
  the edge. -/
  edges : ∀ n ∈ g.nodes, ∀ e ∈ g.outgoing n.id, taken e = true ↔
    executed n.id = true ∧ ((outcome n.id).failed = false ∨ n.continueOnFailure = true) ∧
      (outcome n.id).propagation.Covers (g.outgoing n.id) e

/-- The sources of the taken edges into a node, each once, in the order of the edges. -/
def takenSources (g : Graph) (taken : Nat × Edge → Bool) (id : String) : List String :=
  distinct (((g.incoming id).filter taken).map (·.2.source))

/-- The outputs of the taken predecessors of a node. -/
def takenInput (g : Graph) (outcome : String → Execution) (taken : Nat × Edge → Bool)
    (id : String) : Entries Json :=
  (g.takenSources taken id).map fun source => (source, (outcome source).data)

variable {g : Graph} {outcome : String → Execution} {executed executed' : String → Bool}
  {taken taken' : Nat × Edge → Bool} {e : Nat × Edge} {id : String}

theorem keys_takenInput (outcome : String → Execution) (taken : Nat × Edge → Bool) (id : String) :
    (g.takenInput outcome taken id).keys = g.takenSources taken id := by
  rw [Entries.keys, takenInput, List.map_map]
  exact List.map_id _

/-! ## Solutions are unique -/

/-- Solutions that agree on a node agree on the edges out of it. -/
theorem Solves.taken_congr (wf : g.WellFormed) (first : g.Solves outcome executed taken)
    (second : g.Solves outcome executed' taken') (edge : e ∈ g.edges)
    (same : executed e.2.source = executed' e.2.source) : taken e = taken' e := by
  obtain ⟨n, -, node_mem, from_node⟩ := exists_node?_of_mem_ids wf (wf.ends e edge).1
  have out : e ∈ g.outgoing n.id := mem_outgoing.2 ⟨edge, from_node.symm⟩
  rw [Bool.eq_iff_iff, first.edges n node_mem e out, second.edges n node_mem e out, from_node, same]

/-- In an acyclic graph there is at most one solution. -/
theorem Solves.unique (wf : g.WellFormed) (acyclic : g.Acyclic)
    (first : g.Solves outcome executed taken) (second : g.Solves outcome executed' taken') :
    (∀ id ∈ g.ids, executed id = executed' id) ∧ ∀ e ∈ g.edges, taken e = taken' e := by
  have nodes : ∀ id ∈ g.ids, executed id = executed' id := by
    intro id known
    -- The predecessors of a node have fewer nodes before them.
    induction h : (g.before id).length using Nat.strongRecOn generalizing id with
    | _ n ih =>
        subst h
        rw [Bool.eq_iff_iff, first.nodes id known, second.nodes id known]
        refine or_congr_right (exists_congr fun e => and_congr_right fun mem => ?_)
        obtain ⟨edge, rfl⟩ := mem_incoming.1 mem
        have earlier := length_before_lt wf acyclic (.single ⟨e, edge, rfl, rfl⟩)
        have same := ih _ earlier _ (wf.ends e edge).1 rfl
        rw [first.taken_congr wf second edge same]
  exact ⟨nodes, fun e edge => first.taken_congr wf second edge (nodes _ (wf.ends e edge).1)⟩

/-! ## The edges that an execution takes -/

theorem selectBranch_subset (outgoing : List (Nat × Edge)) (index : Option Nat)
    (conditions : Nat) : selectBranch outgoing index conditions ⊆ outgoing := by
  have among : edgesFor outgoing index conditions ⊆ outgoing := by
    unfold edgesFor
    split
    · exact List.filter_subset_self _
    · exact fun e mem => List.mem_of_getElem? (Option.mem_toList.1 mem)
  unfold selectBranch
  dsimp only
  split
  · exact fun e mem => List.mem_of_getLast? (Option.mem_toList.1 mem)
  · exact among

/-- An edge is found among others by its number. -/
theorem mem_map_number (wf : g.WellFormed) {edges : List (Nat × Edge)} (known : edges ⊆ g.edges)
    (edge : e ∈ g.edges) : e.1 ∈ edges.map (·.1) ↔ e ∈ edges := by
  constructor
  · intro mem
    obtain ⟨d, d_mem, same⟩ := List.mem_map.1 mem
    rw [← wf.eq_of_number (known d_mem) edge same]
    exact d_mem
  · exact fun mem => List.mem_map_of_mem mem

theorem contains_takenEdges (wf : g.WellFormed) {n : Node} (out : e ∈ g.outgoing n.id)
    (x : Execution) : (g.takenEdges n x).contains e.1 = true ↔
      (x.failed = false ∨ n.continueOnFailure = true) ∧
        x.propagation.Covers (g.outgoing n.id) e := by
  have goes_on : x.continues n = true ↔ x.failed = false ∨ n.continueOnFailure = true := by
    simp [Execution.continues]
  have edge := (mem_outgoing.1 out).1
  have known : g.outgoing n.id ⊆ g.edges := fun d mem => (mem_outgoing.1 mem).1
  rw [List.contains_iff_mem, ← goes_on]
  unfold takenEdges
  split
  · next continues =>
      refine Iff.trans ?_ (and_iff_right continues).symm
      cases x.propagation with
      | all | iterate => exact iff_of_true (List.mem_map_of_mem out) trivial
      | suppress => exact iff_of_false List.not_mem_nil id
      | branch index conditions =>
          exact mem_map_number wf (List.Subset.trans (selectBranch_subset _ index conditions) known)
            edge
  · next stops => exact iff_of_false List.not_mem_nil fun both => stops both.1

end Graph

/-! ## What comes into a node -/

/-- What is gathered are the outputs of the sources that are not seen yet, each once. -/
theorem foldl_gather {scope : Entries Json} {active : Nat × Edge → Bool} {data : String → Json}
    (edges : List (Nat × Edge))
    (shown : ∀ e ∈ edges, active e = true → scope.get? e.2.source = some (data e.2.source))
    (seen : List String) :
    edges.foldl
      (fun (input : Entries Json) e =>
        if active e && !input.has e.2.source then
          match scope.get? e.2.source with
          | some output => input.put e.2.source output
          | none => input
        else input)
      (seen.map fun source => (source, data source)) =
    (((edges.filter active).map (·.2.source)).foldl
      (fun seen a => if seen.contains a then seen else seen ++ [a]) seen).map
        fun source => (source, data source) := by
  induction edges generalizing seen with
  | nil => rfl
  | cons e rest ih =>
      have later : ∀ e ∈ rest, active e = true →
          scope.get? e.2.source = some (data e.2.source) :=
        fun e mem => shown e (List.mem_cons_of_mem _ mem)
      have known : Entries.has (seen.map fun source => (source, data source)) e.2.source =
          seen.contains e.2.source := by
        rw [Bool.eq_iff_iff]
        simp [Entries.has]
      rw [List.foldl_cons, known]
      by_cases counts : active e = true
      · rw [List.filter_cons_of_pos counts, List.map_cons, List.foldl_cons, counts, Bool.true_and]
        by_cases there : seen.contains e.2.source = true
        · rw [there, if_pos rfl]
          exact ih later seen
        · have new : seen.contains e.2.source = false := by simpa using there
          have missing : e.2.source ∉
              Entries.keys (seen.map fun source => (source, data source)) := by
            rw [Entries.keys, List.map_map]
            simpa using there
          rw [new, shown e List.mem_cons_self counts, if_neg Bool.false_ne_true]
          have more := ih later (seen ++ [e.2.source])
          rw [List.map_append] at more
          rw [← more]
          dsimp only [Bool.not_false, if_true]
          rw [Entries.put_of_not_mem missing]
          rfl
      · have ignored : active e = false := by simpa using counts
        rw [List.filter_cons_of_neg counts, ignored]
        exact ih later seen

variable {g : Graph} {outcome : String → Execution} {executed : String → Bool}
  {taken : Nat × Edge → Bool}

/-- What a frame gathers for a node whose predecessors along taken edges show their outputs. -/
theorem Frame.Flat.gather_eq {f : Frame} {id : String} (wf : g.WellFormed) (flat : f.Flat g)
    (shown : ∀ e ∈ g.incoming id, f.edges.lookup e.1 = some .taken →
      f.scope.get? e.2.source = some (outcome e.2.source).data) :
    f.gather (Plane.ofGraph g) id =
      g.takenInput outcome (fun e => f.edges.lookup e.1 == some .taken) id := by
  have active (e : Nat × Edge) (mem : e ∈ g.incoming id) :
      f.isActive e.1 e.2 = (f.edges.lookup e.1 == some .taken) :=
    flat.isActive_eq wf (Graph.mem_incoming.1 mem).1
  have visible : ∀ e ∈ g.incoming id, (f.edges.lookup e.1 == some .taken) = true →
      f.scope.get? e.2.source = some (outcome e.2.source).data :=
    fun e mem counts => shown e mem (by simpa using counts)
  refine Eq.trans ?_ (foldl_gather (g.incoming id) visible [])
  unfold Frame.gather
  refine List.foldl_ext _ _ _ fun input e mem => ?_
  exact if_congr (by rw [active e mem]) rfl rfl

/-! ## What a run computes -/

/-- A run follows a solution: what it executes, logs and reports. -/
structure Computes (g : Graph) (outcome : String → Execution) (executed : String → Bool)
    (taken : Nat × Edge → Bool) (events : List Event) (logged : List LogEntry)
    (results : Entries NodeResult) : Prop where
  /-- A node that is executed is executed once, with the outputs of its taken predecessors. -/
  runs : ∀ n ∈ g.nodes, executed n.id = true →
    (∃ ended, (executions events).filter (·.id == n.id) =
        [⟨[], ⟨n, g.takenInput outcome taken n.id⟩, ended⟩] ∧ ended.execution = outcome n.id) ∧
      (∃ entry, logged.filter (·.name == n.id) = [entry] ∧
        entry.sourceIds = g.takenSources taken n.id ∧
        entry.sourceData = .obj (g.takenInput outcome taken n.id)) ∧
      results.get? n.id = some (({} : NodeResult).record (outcome n.id))
  /-- Any other node is reported as skipped. -/
  skips : ∀ n ∈ g.nodes, executed n.id = false →
    (executions events).filter (·.id == n.id) = [] ∧ logged.filter (·.name == n.id) = [] ∧
      results.get? n.id = some { status := .skipped, executions := 0 }
  /-- At the end of the run its frame has the edges as the solution has them. -/
  takes : ∃ f, ⟨[], .finished f⟩ ∈ events ∧
    ∀ e ∈ g.edges, f.edges.lookup e.1 = some (if taken e then .taken else .skipped)

theorem Logs.filter {logged : List LogEntry} {ran : List Ran} (logs : Logs logged ran)
    (id : String) : Logs (logged.filter (·.name == id)) (ran.filter (·.id == id)) := by
  induction logs with
  | nil => exact .nil
  | @cons entry x logged ran describes _ ih =>
      have same : entry.name = x.id := describes.name
      rw [List.filter_cons, List.filter_cons, same]
      split
      · exact .cons describes ih
      · exact ih

namespace Flows

variable {f f' : Frame} {q q' : Progress} {ran : List Ran}

section

variable (flows : Flows g f q ran f' q') (start : f.settled = [])
  (all : ∀ id ∈ g.ids, id ∈ f'.settled)
include flows start all

/-- Each node was executed or skipped. -/
theorem told_or_passed {id : String} (known : id ∈ g.ids) :
    (∃ x ∈ ran, x.id = id ∧ f'.Tells g x) ∨ (id ∉ ran.map Ran.id ∧ f'.Passed g id) := by
  by_cases mem : id ∈ ran.map Ran.id
  · obtain ⟨x, x_mem, rfl⟩ := List.mem_map.1 mem
    exact Or.inl ⟨x, x_mem, rfl, flows.tells x x_mem⟩
  · refine Or.inr ⟨mem, flows.passed id (all id known) ?_ mem⟩
    rw [start]
    exact List.not_mem_nil

variable (wf : g.WellFormed) (outcomes : ∀ x ∈ ran, outcome x.id = x.ended.execution)
include wf outcomes

theorem lookup_eq {n : Node} (node_mem : n ∈ g.nodes) {e : Nat × Edge}
    (out : e ∈ g.outgoing n.id) :
    f'.edges.lookup e.1 = some (if n.id ∈ ran.map Ran.id ∧
      (g.takenEdges n (outcome n.id)).contains e.1 = true then .taken else .skipped) := by
  obtain ⟨edge, source⟩ := Graph.mem_outgoing.1 out
  have known : n.id ∈ g.ids := List.mem_map_of_mem node_mem
  rcases flows.told_or_passed start all known with ⟨x, x_mem, same, tells⟩ | ⟨other, passed⟩
  · have found := (Graph.node?_eq_some_iff wf).2 ⟨node_mem, rfl⟩
    have node := tells.node
    rw [same, found] at node
    cases node
    have ran_mem : x.id ∈ ran.map Ran.id := List.mem_map_of_mem x_mem
    rw [tells.edges e edge (source.trans same.symm), ← same, outcomes x x_mem]
    simp only [ran_mem, true_and]
  · rw [passed.edges e edge source, if_neg fun both => other both.1]

/-- What the frame knows at the end is a solution. -/
theorem solves : g.Solves outcome (fun id => (ran.map Ran.id).contains id)
    (fun e => f'.edges.lookup e.1 == some .taken) where
  nodes id known := by
    simp only [List.contains_iff_mem, beq_iff_eq]
    rcases flows.told_or_passed start all known with ⟨x, x_mem, rfl, tells⟩ | ⟨other, passed⟩
    · exact iff_of_true (List.mem_map_of_mem x_mem) tells.reached
    · exact iff_of_false other passed.unreached
  edges n node_mem e out := by
    have covers := Graph.contains_takenEdges wf out (outcome n.id)
    rw [flows.lookup_eq start all wf outcomes node_mem out]
    by_cases both : n.id ∈ ran.map Ran.id ∧
        (g.takenEdges n (outcome n.id)).contains e.1 = true
    · rw [if_pos both]
      exact iff_of_true rfl ⟨List.contains_iff_mem.2 both.1, covers.1 both.2⟩
    · rw [if_neg both]
      exact iff_of_false (by decide) fun held =>
        both ⟨List.contains_iff_mem.1 held.1, covers.2 held.2⟩

theorem computes {events : List Event} {logged : List LogEntry}
    (listed : executions events = ran) (logs : Logs logged ran)
    (finished : ⟨[], .finished f'⟩ ∈ events) :
    Computes g outcome (fun id => (ran.map Ran.id).contains id)
      (fun e => f'.edges.lookup e.1 == some .taken) events logged q'.results := by
  subst listed
  refine ⟨fun n node_mem runs => ?_, fun n node_mem skips => ?_, f', finished,
    fun e edge => ?_⟩
  · obtain ⟨x, x_mem, same⟩ := List.mem_map.1 (List.contains_iff_mem.1 runs)
    have tells := flows.tells x x_mem
    have found := (Graph.node?_eq_some_iff wf).2 ⟨node_mem, rfl⟩
    have node := tells.node
    rw [same, found] at node
    have single := filter_eq_singleton flows.distinct x_mem
    have input : x.task.input =
        g.takenInput outcome (fun e => f'.edges.lookup e.1 == some .taken) n.id := by
      rw [← same, tells.input]
      refine flows.flat.gather_eq wf fun e mem is_taken => ?_
      have edge := (Graph.mem_incoming.1 mem).1
      rcases flows.told_or_passed start all (wf.ends e edge).1 with
        ⟨y, y_mem, from_y, told⟩ | ⟨-, passed⟩
      · rw [← from_y, told.data, outcomes y y_mem]
      · rw [passed.edges e edge rfl] at is_taken
        cases is_taken
    have record := flows.recorded x x_mem
    have log := logs.filter x.id
    rw [single] at log
    obtain ⟨entry, rest, describes, nothing, entries⟩ := List.forall₂_cons_right_iff.1 log
    cases nothing
    rw [same] at single record entries
    obtain ⟨place, task, ended⟩ := x
    obtain ⟨m, input'⟩ := task
    cases Option.some.inj node
    cases tells.place
    have outcome_eq : outcome m.id = ended.execution := outcomes _ x_mem
    refine ⟨⟨ended, ?_, outcome_eq.symm⟩, ⟨entry, entries, ?_, ?_⟩, ?_⟩
    · rw [single, ← input]
    · rw [describes.sourceIds, ← Graph.keys_takenInput outcome, ← input]
      rfl
    · rw [describes.sourceData, ← input]
      rfl
    · rw [record, outcome_eq]
  · have other : n.id ∉ (executions events).map Ran.id := by
      simpa using skips
    have known : n.id ∈ g.ids := List.mem_map_of_mem node_mem
    have none_ran : (executions events).filter (·.id == n.id) = [] := by
      rw [List.filter_eq_nil_iff]
      exact fun x x_mem same => other (List.mem_map.2 ⟨x, x_mem, beq_iff_eq.1 same⟩)
    have log := logs.filter n.id
    rw [none_ran] at log
    refine ⟨none_ran, List.forall₂_nil_right_iff.1 log, ?_⟩
    refine flows.skipped n.id (all _ known) ?_ other
    rw [start]
    exact List.not_mem_nil
  · obtain ⟨n, -, node_mem, from_node⟩ := Graph.exists_node?_of_mem_ids wf (wf.ends e edge).1
    have out : e ∈ g.outgoing n.id := Graph.mem_outgoing.2 ⟨edge, from_node.symm⟩
    rw [flows.lookup_eq start all wf outcomes node_mem out]
    split
    · rfl
    · rfl

end

end Flows

theorem flat_topFrame (wf : g.WellFormed) (acyclic : g.Acyclic) (free : ∀ id, ¬ g.IsIterator id) :
    g.topFrame.Flat g where
  sound := .frame_ids wf acyclic
  members _ known := (Plane.mem_frameMembers wf acyclic).2
    ⟨known, fun I _ repeats => free I repeats.isIterator⟩
  seeded := rfl
  pending := rfl

variable {h : Host ω} {request : RunRequest}

/-- A condition that cannot hold, with a node for the case that it does and one behind both. -/
def detour : Workflow :=
  { nodes := [{ id := "if", config := .conditional {} },
      { id := "then", config := .format { template := "-" } },
      { id := "after", config := .format { template := "-" } }]
    edges := [{ source := "if", target := "then", data := some { branch := some 0 } },
      { source := "then", target := "after" }, { source := "if", target := "after" }] }

/-- What the nodes come to. -/
def detourOutcome (id : String) : Execution :=
  if id = "if" then
    ⟨.obj [("branch", .str "else"), ("conditionIndex", .null), ("input", .obj [])], none,
      .branch none 0, [], false⟩
  else ⟨.str "-", none, .all, [], false⟩

end Flowline
