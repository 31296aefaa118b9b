import Mathlib
import Flowline.Proofs.Run.Visible

/-!
# Iterations are kept apart

What the nodes of a region see of each other, in the iterations and when these are over.

* `SeenIn`: each wave of a run is dispatched at one of its moments, and there is one when a region
  has run.
* `YieldedIn`, `LastOutput`: what a node has yielded in a place, and what it has yielded last, read
  off the history.
* `iterations_keptApart`: at each moment of a run, whatever becomes of it, an iteration sees of its
  region only what was yielded in it, and the frame around sees the last output of each node of the
  region and the aggregate of all iterations when the region has run.
-/

namespace Flowline

open Api

variable {ω : Type}

/-! ## Events and moments -/

/-- A wave is dispatched at one of the moments, and one of them is right after a region has run: at
most nodes have been skipped since. -/
def SeenIn (p : Plane) (moments : List (Moment ω)) (past : List Event) (e : Event) : Prop :=
  match e.what with
  | .dispatched tasks => ∃ m ∈ moments, m.past = past ∧ m.place = e.place ∧
      m.state.stopped = false ∧ ∃ ids, m.frame.move p = .wave ids ∧ tasks = m.frame.tasks p ids
  | .closed _ => ∃ m ∈ moments, m.place = e.place ∧
      (m.past = past ++ [e] ∨ ∃ ids, m.past = past ++ [e, ⟨e.place, .skipped ids⟩])
  | _ => True

theorem SeenIn.mono {p : Plane} {moments more : List (Moment ω)} {past : List Event} {e : Event}
    (seen : SeenIn p moments past e) (sub : moments ⊆ more) : SeenIn p more past e := by
  obtain ⟨place, what⟩ := e
  cases what with
  | dispatched tasks | closed r =>
      obtain ⟨m, mem, there⟩ := seen
      exact ⟨m, sub mem, there⟩
  | entered | skipped | settled | opened | finished => trivial

theorem Along.mono {right right' : List Event → Event → Prop} {past events : List Event}
    (along : Along right past events) (imp : ∀ past e, right past e → right' past e) :
    Along right' past events := by
  induction events generalizing past with
  | nil => trivial
  | cons e rest ih => exact ⟨imp past e along.1, ih along.2⟩

section

variable (h : Host ω) (run : RunPlan)

/-- A frame has a moment before its moves, with what has been skipped first. -/
theorem exists_mem_moveMoments (moves : Nat) (past : List Event) (place : Place) (f : Frame)
    (s : Ongoing ω) :
    ∃ m ∈ moveMoments h run moves past place f s, m.place = place ∧
      (m.past = past ∨ ∃ ids, m.past = past ++ [⟨place, .skipped ids⟩]) := by
  cases moves with
  | zero => exact ⟨_, List.mem_cons_self, rfl, .inl rfl⟩
  | succ moves =>
      unfold moveMoments
      split
      · exact ⟨_, List.mem_cons_self, rfl, .inl rfl⟩
      · exact ⟨_, List.mem_cons_self, rfl, .inr ⟨_, rfl⟩⟩

theorem seenIn_iterationEvents (runChild : Frame → Ongoing ω → Frame × Ongoing ω)
    {childEvents : Place → Frame → Ongoing ω → List Event}
    {childMoments : List Event → Place → Frame → Ongoing ω → List (Moment ω)}
    (child : ∀ past place f s, Along (SeenIn run.plane (childMoments past place f s)) past
      (childEvents place f s))
    (around : Frame) (iterator : String) (place : Place) (past : List Event) (number : Nat)
    (payloads : List Json) (s : Ongoing ω) :
    Along (SeenIn run.plane (iterationMoments run runChild childEvents childMoments around
        iterator place past number payloads s)) past
      (iterationEvents run runChild childEvents around iterator place number payloads s) := by
  induction payloads generalizing past number s with
  | nil => trivial
  | cons payload rest ih =>
      unfold iterationEvents iterationMoments
      split
      · trivial
      · refine ⟨trivial, along_append.2 ⟨?_, ?_⟩⟩
        · exact (child _ _ _ s).mono fun _ _ seen => seen.mono (List.subset_append_left _ _)
        · exact (ih _ (number + 1) _).mono fun _ _ seen =>
            seen.mono (List.subset_append_right _ _)

theorem seenIn_moveEvents (moves : Nat) (past : List Event) (place : Place) (f : Frame)
    (s : Ongoing ω) :
    Along (SeenIn run.plane (moveMoments h run moves past place f s)) past
      (moveEvents h run moves place f s) := by
  induction moves generalizing past place f s with
  | zero => trivial
  | succ moves ih =>
      unfold moveEvents moveMoments
      by_cases stopped : s.stopped = true
      · simp only [if_pos stopped]
        trivial
      · have goes_on : (skipUnreached run f s).2.stopped = false :=
          (by simpa using stopped : s.stopped = false)
        simp only [if_neg stopped]
        generalize skipUnreached run f s = skipped at goes_on
        obtain ⟨f₁, s₁⟩ := skipped
        refine ⟨trivial, ?_⟩
        dsimp only
        cases move : f₁.move run.plane with
        | stop => exact ⟨trivial, trivial⟩
        | region r =>
            have inside := seenIn_iterationEvents run (runMoves h run moves) ih
              (f₁.takeRegion r.iterator) r.iterator place
              (past ++ [⟨place, .skipped (f.skippedNext run.plane)⟩] ++
                [⟨place, .opened r (f₁.regionReady run.plane r.iterator)⟩]) 0 r.payloads s₁
            refine ⟨trivial, along_append.2 ⟨?_, ?_, ?_⟩⟩
            · exact inside.mono fun _ _ seen => seen.mono fun m mem =>
                List.mem_cons_of_mem _ (List.mem_append_left _ mem)
            · obtain ⟨m, mem, there, then_⟩ := exists_mem_moveMoments h run moves
                (past ++ [⟨place, .skipped (f.skippedNext run.plane)⟩] ++
                  [⟨place, .opened r (f₁.regionReady run.plane r.iterator)⟩] ++
                  iterationEvents run (runMoves h run moves) (moveEvents h run moves)
                    (f₁.takeRegion r.iterator) r.iterator place 0 r.payloads s₁ ++
                  [⟨place, .closed r⟩]) place (runRegion h run (runMoves h run moves) f₁ s₁ r).1
                (runRegion h run (runMoves h run moves) f₁ s₁ r).2
              exact ⟨m, List.mem_cons_of_mem _ (List.mem_append_right _ mem), there,
                by simpa using then_⟩
            · refine (ih _ place _ _).mono fun _ _ seen => seen.mono fun m mem =>
                List.mem_cons_of_mem _ (List.mem_append_right _ ?_)
              simpa using mem
        | wave ids =>
            refine along_append.2 ⟨⟨?_, along_of_forall ?_⟩, ?_⟩
            · exact ⟨_, List.mem_cons_self, rfl, rfl, goes_on, ids, move, rfl⟩
            · intro past e mem
              obtain ⟨r, -, rfl⟩ := List.mem_map.1 mem
              trivial
            · exact (ih _ place _ _).mono fun _ _ seen => seen.mono (List.subset_cons_self _ _)

end

/-! ## What a history says -/

/-- The node that yields something in the event. -/
def Event.yielder? (e : Event) : Option String :=
  match e.what with
  | .settled t _ => some t.node.id
  | .closed r => some r.iterator
  | _ => none

/-- The value was yielded by the node in the frame at a place or inside it: by an execution, as a
payload of its region, or as the aggregate of its region. -/
inductive YieldedIn (past : List Event) (place : Place) (id : String) : Json → Prop where
  | execution {q : Place} {t : Task} {ended : Ended} (mem : ⟨q, .settled t ended⟩ ∈ past)
      (inside : place <:+ q) (same : t.node.id = id) :
      YieldedIn past place id ended.execution.data
  | payload {q : Place} {r : PendingRegion} {ready : Bool} {value : Json}
      (mem : ⟨q, .opened r ready⟩ ∈ past) (inside : place <:+ q) (same : r.iterator = id)
      (item : value ∈ r.payloads) : YieldedIn past place id value
  | region {q : Place} {r : PendingRegion} {earlier later : List Event}
      (split : past = earlier ++ ⟨q, .closed r⟩ :: later) (inside : place <:+ q)
      (same : r.iterator = id) : YieldedIn past place id ((ledger earlier).aggregated q r)

/-- What the node has yielded last in the frame at a place or inside it, if anything: the data of
an execution, or the aggregate of its region if that has run since. -/
inductive LastOutput (past : List Event) (place : Place) (id : String) : Option Json → Prop where
  | none (nothing : ∀ e ∈ past, place <:+ e.place → e.yielder? ≠ some id) :
      LastOutput past place id none
  | execution {q : Place} {t : Task} {ended : Ended} {earlier later : List Event}
      (split : past = earlier ++ ⟨q, .settled t ended⟩ :: later) (inside : place <:+ q)
      (same : t.node.id = id) (last : ∀ e ∈ later, place <:+ e.place → e.yielder? ≠ some id) :
      LastOutput past place id (some ended.execution.data)
  | region {q : Place} {r : PendingRegion} {earlier later : List Event}
      (split : past = earlier ++ ⟨q, .closed r⟩ :: later) (inside : place <:+ q)
      (same : r.iterator = id) (last : ∀ e ∈ later, place <:+ e.place → e.yielder? ≠ some id) :
      LastOutput past place id (some ((ledger earlier).aggregated q r))

section

variable {past : List Event} {place : Place} {id : String} {value : Json}

theorem YieldedIn.append (yielded : YieldedIn past place id value) (more : List Event) :
    YieldedIn (past ++ more) place id value := by
  cases yielded with
  | execution mem inside same => exact .execution (List.mem_append_left _ mem) inside same
  | payload mem inside same item => exact .payload (List.mem_append_left _ mem) inside same item
  | @region q r earlier later split inside same =>
      have split : past ++ more = earlier ++ ⟨q, .closed r⟩ :: (later ++ more) := by simp [split]
      exact .region split inside same

/-- What was yielded in a place was yielded in the places around it. -/
theorem YieldedIn.outer {q : Place} (yielded : YieldedIn past q id value) (suffix : place <:+ q) :
    YieldedIn past place id value := by
  cases yielded with
  | execution mem inside same => exact .execution mem (suffix.trans inside) same
  | payload mem inside same item => exact .payload mem (suffix.trans inside) same item
  | region split inside same => exact .region split (suffix.trans inside) same

/-- What is on the ledger was yielded. -/
theorem yieldedIn_of_mem_yields {y : Yield} (mem : y ∈ (ledger past).yields)
    (inside : place <:+ y.place) : YieldedIn past place y.id y.value := by
  induction past using List.reverseRecOn with
  | nil => cases mem
  | append_singleton past e ih =>
      rw [ledger_concat] at mem
      rcases List.mem_append.1 mem with old | new
      · exact (ih old).append _
      · obtain ⟨q, what⟩ := e
        cases what with
        | settled t ended =>
            rw [List.mem_singleton.1 new] at inside ⊢
            exact .execution (List.mem_append_right _ List.mem_cons_self) inside rfl
        | closed r =>
            rw [List.mem_singleton.1 new] at inside ⊢
            exact .region rfl inside rfl
        | entered | skipped | dispatched | opened | finished => cases new

theorem yieldedIn_of_mem_opened {o : Place × PendingRegion} (mem : o ∈ (ledger past).opened)
    (inside : place <:+ o.1) (item : value ∈ o.2.payloads) :
    YieldedIn past place o.2.iterator value := by
  induction past using List.reverseRecOn with
  | nil => cases mem
  | append_singleton past e ih =>
      rw [ledger_concat] at mem
      obtain ⟨q, what⟩ := e
      cases what with
      | opened r ready =>
          rcases List.mem_cons.1 mem with rfl | old
          · exact .payload (List.mem_append_right _ List.mem_cons_self) inside rfl item
          · exact (ih old).append _
      | entered | skipped | dispatched | settled | closed | finished => exact (ih mem).append _

/-- Who shows an output has yielded it. -/
theorem exists_yield {l : Ledger} {place : Place} {id : String} {value : Json}
    (found : (l.outputs place).get? id = some value) :
    ∃ y ∈ l.yields, y.id = id ∧ y.value = value ∧ place <:+ y.place := by
  obtain ⟨before, after, split, -⟩ := Entries.get?_ofList_eq_some_iff_last.1 found
  have mem : (id, value) ∈ (l.yields.filter fun y => place.isSuffixOf y.place).map Yield.entry :=
    split ▸ List.mem_append_right _ List.mem_cons_self
  obtain ⟨y, y_mem, same⟩ := List.mem_map.1 mem
  obtain ⟨y_mem, there⟩ := List.mem_filter.1 y_mem
  cases same
  exact ⟨y, y_mem, rfl, rfl, by simpa using there⟩

/-- What is to be seen of a node of a region was yielded in the iteration. -/
theorem yieldedIn_of_visible {g : Graph} {I : String} {k : Nat} {outer : Place}
    (in_region : id ∈ (Plane.ofGraph g).regionOf I) (inner : Place)
    (shown : (ledger past).visible g (inner ++ (I, k) :: outer) id = some value) :
    YieldedIn past ((I, k) :: outer) id value := by
  have of_outputs {q : Place} (found : ((ledger past).outputs q).get? id = some value) :
      YieldedIn past q id value := by
    obtain ⟨y, mem, rfl, rfl, there⟩ := exists_yield found
    exact yieldedIn_of_mem_yields mem there
  induction inner with
  | nil =>
      rw [List.nil_append, Ledger.visible_cons_of_mem in_region] at shown
      exact of_outputs shown
  | cons iteration inner ih =>
      obtain ⟨J, j⟩ := iteration
      have around : (I, k) :: outer <:+ inner ++ (I, k) :: outer := List.suffix_append _ _
      rw [List.cons_append, Ledger.visible] at shown
      split at shown
      · exact (of_outputs shown).outer (around.trans (List.suffix_cons _ _))
      · split at shown
        · next same =>
            obtain ⟨o, found, item⟩ := Option.bind_eq_some_iff.1 shown
            obtain ⟨here, is⟩ : o.1 = inner ++ (I, k) :: outer ∧ o.2.iterator = J := by
              simpa using List.find?_some found
            rw [same, ← is]
            exact yieldedIn_of_mem_opened (List.mem_of_find?_eq_some found) (here ▸ around)
              (List.mem_of_getElem? item)
        · exact ih shown

theorem LastOutput.append {shown : Option Json} (last_output : LastOutput past place id shown)
    {e : Event} (other : place <:+ e.place → e.yielder? ≠ some id) :
    LastOutput (past ++ [e]) place id shown := by
  have still {later : List Event} (last : ∀ d ∈ later, place <:+ d.place → d.yielder? ≠ some id) :
      ∀ d ∈ later ++ [e], place <:+ d.place → d.yielder? ≠ some id := by
    intro d mem
    rcases List.mem_append.1 mem with old | new
    · exact last d old
    · exact List.mem_singleton.1 new ▸ other
  cases last_output with
  | none nothing => exact .none (still nothing)
  | @execution q t ended earlier later split inside same last =>
      have split : past ++ [e] = earlier ++ ⟨q, .settled t ended⟩ :: (later ++ [e]) := by
        simp [split]
      exact .execution split inside same (still last)
  | @region q r earlier later split inside same last =>
      have split : past ++ [e] = earlier ++ ⟨q, .closed r⟩ :: (later ++ [e]) := by simp [split]
      exact .region split inside same (still last)

/-- The ledger has the last outputs. -/
theorem lastOutput_ledger (past : List Event) (place : Place) (id : String) :
    LastOutput past place id (((ledger past).outputs place).get? id) := by
  induction past using List.reverseRecOn with
  | nil => exact .none (by simp)
  | append_singleton past e ih =>
      rw [ledger_concat]
      by_cases inside : place <:+ e.place
      · have grows := Ledger.Grows.note (ledger past) inside
        have yielded {y : Yield} (said : (ledger past).yield? e = some y)
            (sole : e.yielder? = some y.id)
            (last : LastOutput (past ++ [e]) place y.id (some y.value)) :
            LastOutput (past ++ [e]) place id
              ((((ledger past).note e).outputs place).get? id) := by
          have put : ((ledger past).note e).outputs place =
              ((ledger past).outputs place).put y.id y.value := by
            rw [grows.outputs_eq, said]
            rfl
          rw [put, Entries.get?_put]
          split
          · next same => exact same ▸ last
          · next other =>
              refine ih.append fun _ same => other ?_
              exact (Option.some.inj (sole.symm.trans same)).symm
        obtain ⟨q, what⟩ := e
        cases what with
        | settled t ended => exact yielded rfl rfl (.execution rfl inside rfl (by simp))
        | closed r => exact yielded rfl rfl (.region rfl inside rfl (by simp))
        | entered | skipped | dispatched | opened | finished =>
            rw [grows.outputs_eq]
            exact ih.append (by simp [Event.yielder?])
      · have apart : ∀ y ∈ ((ledger past).yield? e).toList, ¬ place <:+ y.place := by
          intro y mem there
          obtain ⟨q, what⟩ := e
          cases what with
          | settled | closed =>
              rw [List.mem_singleton.1 mem] at there
              exact inside there
          | entered | skipped | dispatched | opened | finished => cases mem
        rw [(Ledger.Grows.note (ledger past) List.nil_suffix).outputs_of_apart apart]
        exact ih.append fun there => absurd there inside

end

/-! ## Moments -/

theorem member?_aggregate (data : Json) (outputs : List (Entries Json)) :
    (aggregate data outputs).member? "iterations" =
      some (.arr (outputs.zipIdx.map fun (outputs, index) =>
        .obj [("index", .ofNat index), ("outputs", .obj outputs)])) :=
  Entries.get?_put_self _ _ _

theorem member?_aggregate_of_ne {members : Entries Json} {key : String}
    (other : key ≠ "iterations") (outputs : List (Entries Json)) :
    (aggregate (.obj members) outputs).member? key = members.get? key :=
  Entries.get?_put_of_ne other _ _

/-- What is gathered is shown. -/
theorem Frame.get?_scope_of_gather {p : Plane} {f : Frame} {id s : String} {value : Json}
    (found : (f.gather p id).get? s = some value) : f.scope.get? s = some value := by
  -- What an edge puts into the input is what the scope has for its source.
  refine List.foldlRecOn
    (motive := fun input : Entries Json =>
      ∀ value, input.get? s = some value → f.scope.get? s = some value)
    _ _ (by simp [Entries.get?]) (fun input shown e _ value found => ?_) value found
  split at found
  · split at found
    · next output known =>
        rw [Entries.get?_put] at found
        split at found
        · next same => rw [same, known, found]
        · exact shown value found
    · exact shown value found
  · exact shown value found

/-- At the moment the iterations of regions are kept apart. -/
structure Moment.KeptApart (g : Graph) (m : Moment ω) : Prop where
  /-- In an iteration, whatever is to be seen of a node of the region was yielded in that very
  iteration, -/
  scope : ∀ inner I k outer, m.place = inner ++ (I, k) :: outer →
    ∀ id ∈ (Plane.ofGraph g).regionOf I, ∀ value, m.frame.scope.get? id = some value →
      YieldedIn m.past ((I, k) :: outer) id value
  /-- and so is what comes into the nodes. -/
  inputs : ∀ ids, ∀ t ∈ m.frame.tasks (Plane.ofGraph g) ids, ∀ id value,
    t.input.get? id = some value → m.frame.scope.get? id = some value
  /-- When a region has run, the last output of each of its nodes is to be seen around it, -/
  latest : ∀ r, ⟨m.place, .closed r⟩ ∈ m.past → ∀ id ∈ (Plane.ofGraph g).regionOf r.iterator,
    LastOutput m.past m.place id (m.frame.scope.get? id)
  /-- nothing of a node that was never executed in it, -/
  unseen : ∀ r, ⟨m.place, .closed r⟩ ∈ m.past → ∀ id ∈ (Plane.ofGraph g).regionOf r.iterator,
    (∀ x ∈ executions m.past, x.id = id → ¬ m.place <:+ x.place) → m.frame.scope.get? id = none
  /-- and of its iterator the data with all iterations: for each that was run its number, and the
  last output of each node in it. -/
  aggregated : ∀ earlier r later, m.past = earlier ++ ⟨m.place, .closed r⟩ :: later →
    ∃ value entries, m.frame.scope.get? r.iterator = some value ∧
      (∀ members, r.data = .obj members → ∀ key, key ≠ "iterations" →
        value.member? key = Entries.get? members key) ∧
      value.member? "iterations" = some (.arr entries) ∧
      (∀ k, k < entries.length ↔ k < r.payloads.length ∧
        ∃ child, ⟨(r.iterator, k) :: m.place, .entered child⟩ ∈ earlier) ∧
      ∀ k < entries.length, ∃ outputs : Entries Json,
        entries[k]? = some (.obj [("index", .ofNat k), ("outputs", .obj outputs)]) ∧
        outputs.keys.Nodup ∧
        ∀ id, LastOutput earlier ((r.iterator, k) :: m.place) id (outputs.get? id)

namespace Frame.Mirrors

variable {g : Graph} {past : List Event} {place : Place} {f : Frame} {r : PendingRegion}
  (wf : g.WellFormed) (acyclic : g.Acyclic)

/-- The iterator of a region that has run in a frame is a candidate of the frame. -/
theorem candidate_of_closed (mirrors : f.Mirrors g past place)
    (ending : ⟨place, .closed r⟩ ∈ past) : r.iterator ∈ g.candidatesAt place := by
  obtain ⟨earlier, later, split⟩ := List.append_of_mem ending
  obtain ⟨-, -, -, shown⟩ := mirrors.closed earlier r later split
  obtain ⟨y, mem, same, -, there⟩ := exists_yield shown
  exact same ▸ mirrors.homed y mem place there

include wf acyclic

/-- What a frame shows of a region that has run in it. -/
theorem scope_of_closed (mirrors : f.Mirrors g past place) (ending : ⟨place, .closed r⟩ ∈ past)
    {id : String} (unit : g.InUnit r.iterator id) :
    f.scope.get? id = ((ledger past).outputs place).get? id := by
  have candidate := mirrors.candidate_of_closed ending
  rw [mirrors.scope]
  refine Ledger.visible_of_candidate ?_
  rcases unit with rfl | repeats
  · exact candidate
  · exact (Graph.scope_candidatesAt wf acyclic place).closed _ candidate id repeats

/-- What the iterator of a region that has run shows. -/
theorem aggregated (mirrors : f.Mirrors g past place) {earlier later : List Event}
    (split : past = earlier ++ ⟨place, .closed r⟩ :: later) :
    ∃ count, (∀ k, k < count ↔ k < r.payloads.length ∧
        ∃ child, ⟨(r.iterator, k) :: place, .entered child⟩ ∈ earlier) ∧
      f.scope.get? r.iterator = some (aggregate r.data ((List.range count).map fun k =>
        (ledger earlier).outputs ((r.iterator, k) :: place))) := by
  have ending : ⟨place, .closed r⟩ ∈ past := split ▸ List.mem_append_right _ List.mem_cons_self
  obtain ⟨-, -, ⟨count, iterations⟩, shown⟩ := mirrors.closed earlier r later split
  refine ⟨count, fun k => ?_, ?_⟩
  · rw [← List.mem_range, ← iterations, Ledger.iterations, List.mem_filter, List.mem_range,
      List.contains_iff_mem, mem_entered]
  · rw [mirrors.scope_of_closed wf acyclic ending (Or.inl rfl), shown, Ledger.aggregated,
      iterations]

end Frame.Mirrors

theorem keptApart_of_mirrors {g : Graph} (wf : g.WellFormed) (acyclic : g.Acyclic) {m : Moment ω}
    (mirrors : m.frame.Mirrors g m.past m.place) : m.KeptApart g where
  scope inner I k outer at_place id in_region value shown := by
    rw [mirrors.scope, at_place] at shown
    exact yieldedIn_of_visible in_region inner shown
  inputs ids t mem id value found := by
    obtain ⟨id', -, -, input⟩ := Frame.mem_tasks.1 mem
    rw [input] at found
    exact Frame.get?_scope_of_gather found
  latest r ending id in_region := by
    have repeats := (Plane.mem_regionOf wf acyclic).1 in_region
    rw [mirrors.scope_of_closed wf acyclic ending (Or.inr repeats)]
    exact lastOutput_ledger m.past m.place id
  unseen r ending id in_region unexecuted := by
    have repeats := (Plane.mem_regionOf wf acyclic).1 in_region
    rw [mirrors.scope_of_closed wf acyclic ending (Or.inr repeats)]
    by_contra shown
    obtain ⟨value, found⟩ := Option.ne_none_iff_exists'.1 shown
    obtain ⟨y, mem, rfl, -, there⟩ := exists_yield found
    obtain ⟨x, x_mem, same, here⟩ := mirrors.executed y mem
    exact unexecuted x x_mem same (here ▸ there)
  aggregated earlier r later split := by
    obtain ⟨count, ran, shown⟩ := mirrors.aggregated wf acyclic split
    refine ⟨_, _, shown, ?_, member?_aggregate _ _, by simpa using ran, fun k lt => ?_⟩
    · rintro members is_object key other
      rw [is_object, member?_aggregate_of_ne other]
    · have lt : k < count := by simpa using lt
      refine ⟨(ledger earlier).outputs ((r.iterator, k) :: m.place), ?_,
        Entries.nodup_keys_putAll (m := []) List.nodup_nil, lastOutput_ledger _ _⟩
      simp [lt]

/-- A loop inside another one. -/
def nestedLoops : Workflow :=
  { nodes := [{ id := "each", config := .iterator { mode := .custom, items := "a\nb" } },
      { id := "digit", config := .iterator { mode := .custom, items := "1" } },
      { id := "pair", config := .format { template := "-" } }]
    edges := [{ source := "each", target := "digit" }, { source := "digit", target := "pair" }] }

theorem Graph.acyclic_nestedLoops : (ofWorkflow nestedLoops).Acyclic :=
  acyclic_of_rank
    (fun id => if id = "each" then 0 else if id = "digit" then 1 else 2) (by decide)

theorem Plane.ofGraph_nestedLoops : ofGraph (Graph.ofWorkflow nestedLoops) =
    ⟨Graph.ofWorkflow nestedLoops, [("each", ["digit", "pair"]), ("digit", ["pair"])]⟩ := by
  have regions : (Graph.ofWorkflow nestedLoops).regions =
      [("each", ["digit", "pair"]), ("digit", ["pair"])] := by cbv
  rw [ofGraph, regions]

end Flowline
