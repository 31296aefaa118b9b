import Flowline.Proofs.Run.Ledger
import Flowline.Proofs.Run.Moments
import Flowline.Proofs.Run.Tracking

/-!
# What a frame shows

At every moment of a run, also of one that is cancelled or told to stop, a frame shows of each node
what the ledger of the history says (`Frame.Mirrors`).  So the frame of an iteration shows nothing
of its region but what was yielded in that iteration, and when a region has run the frame around it
shows the last output of each node of the region, and the aggregate of its iterator.

* `Frame.Mirrors.skipped`, `Frame.Mirrors.waved`: moves of a frame.
* `UnderWay`: a region that runs, between two of its iterations, and then its end
  (`UnderWay.mirrors_closed`).
* `mirrors_invariant`: the steps of a run, together.
-/

namespace Flowline

variable {ω : Type}

/-- Each iterator of a place is a candidate of the frame around it. -/
def Graph.Chained (g : Graph) : Place → Prop
  | [] => True
  | (I, _) :: outer => I ∈ g.candidatesAt outer ∧ g.Chained outer

theorem Graph.scope_candidatesAt {g : Graph} (wf : g.WellFormed) (acyclic : g.Acyclic)
    (place : Place) : g.Scope (g.candidatesAt place) := by
  cases place with
  | nil => exact Plane.scope_ids wf
  | cons iteration outer => exact Plane.scope_regionOf wf acyclic iteration.1

/-- The candidates of a frame are among those of the frames around it. -/
theorem Graph.Chained.candidates {g : Graph} (wf : g.WellFormed) (acyclic : g.Acyclic)
    {place q : Place} (chained : g.Chained place) (suffix : q <:+ place) :
    g.candidatesAt place ⊆ g.candidatesAt q := by
  induction place with
  | nil => rw [List.suffix_nil.1 suffix]; exact fun _ mem => mem
  | cons iteration outer ih =>
      obtain ⟨I, k⟩ := iteration
      rcases List.suffix_cons_iff.1 suffix with rfl | deeper
      · exact fun _ mem => mem
      · intro id in_region
        refine ih chained.2 deeper ?_
        exact (scope_candidatesAt wf acyclic outer).closed I chained.1 id
          ((Plane.mem_regionOf wf acyclic).1 in_region)

theorem Graph.Chained.suffix {g : Graph} {place q : Place} (chained : g.Chained place)
    (suffix : q <:+ place) : g.Chained q := by
  induction place with
  | nil => rw [List.suffix_nil.1 suffix]; trivial
  | cons iteration outer ih =>
      rcases List.suffix_cons_iff.1 suffix with rfl | deeper
      · exact chained
      · exact ih chained.2 deeper

/-- An event that is not among the last ones was there before them. -/
theorem split_of_not_mem {α : Type} {past more earlier later : List α} {e : α}
    (split : past ++ more = earlier ++ e :: later) (other : e ∉ more) :
    ∃ rest, past = earlier ++ e :: rest := by
  rcases List.append_eq_append_iff.1 split with ⟨front, rfl, more_eq⟩ | ⟨rest, past_eq, later_eq⟩
  · exact absurd (more_eq ▸ List.mem_append_right _ List.mem_cons_self) other
  · cases rest with
    | nil =>
        have first : e :: later = more := later_eq
        exact absurd (first ▸ List.mem_cons_self) other
    | cons d rest =>
        obtain ⟨rfl, -⟩ := List.cons.inj later_eq
        exact ⟨rest, past_eq⟩

/-- What is yielded in a wave. -/
def waveYields (place : Place) (ran : List (Task × Ended)) : List Yield :=
  ran.map fun r => ⟨place, r.1.node.id, r.2.execution.data⟩

theorem map_entry_waveYields (place : Place) (ran : List (Task × Ended)) :
    (waveYields place ran).map Yield.entry = Frame.waveOutputs ran := List.map_map

/-- Each node of a wave yields what it has come to. -/
theorem get?_waveOutputs {ran : List (Task × Ended)} (distinct : (Frame.ranIds ran).Nodup)
    {r : Task × Ended} (mem : r ∈ ran) :
    (Entries.ofList (Frame.waveOutputs ran)).get? r.1.node.id = some r.2.execution.data := by
  refine (Entries.get?_ofList_eq_some_iff fun k a b left right => ?_).2 (List.mem_map_of_mem mem)
  obtain ⟨x, x_mem, x_eq⟩ := List.mem_map.1 left
  obtain ⟨y, y_mem, y_eq⟩ := List.mem_map.1 right
  cases x_eq
  obtain ⟨same, rfl⟩ := Prod.mk.inj y_eq
  rw [List.inj_on_of_nodup_map distinct x_mem y_mem same.symm]

theorem ledger_wave (past : List Event) (place : Place) (tasks : List Task)
    (ran : List (Task × Ended)) :
    Ledger.Grows place (ledger past) (waveYields place ran)
      (ledger (past ++ ⟨place, .dispatched tasks⟩ ::
        ran.map fun r => ⟨place, .settled r.1 r.2⟩)) := by
  have settled (l : Ledger) : Ledger.Grows place l (waveYields place ran)
      ((ran.map fun r => (⟨place, .settled r.1 r.2⟩ : Event)).foldl Ledger.note l) := by
    induction ran generalizing l with
    | nil => exact .refl place l
    | cons r rest ih =>
        exact (Ledger.Grows.note l (e := ⟨place, .settled r.1 r.2⟩) (List.suffix_refl _)).trans
          (ih _)
  rw [ledger_append]
  exact (Ledger.Grows.note (ledger past) (e := ⟨place, .dispatched tasks⟩)
    (List.suffix_refl _)).trans (settled _)

namespace Frame

/-- The frame shows what the ledger says. -/
structure Mirrors (g : Graph) (past : List Event) (place : Place) (f : Frame) : Prop where
  chained : g.Chained place
  /-- What is yielded in a frame is yielded by its candidates, -/
  homed : ∀ y ∈ (ledger past).yields, ∀ q, q <:+ y.place → y.id ∈ g.candidatesAt q
  /-- and only when they are executed. -/
  executed : ∀ y ∈ (ledger past).yields, ∃ x ∈ executions past, x.id = y.id ∧ x.place = y.place
  outputs : f.outputs = (ledger past).outputs place
  scope : ∀ id, f.scope.get? id = (ledger past).visible g place id
  /-- An iterator shows its own data until its region has run, -/
  pending : ∀ r ∈ f.pending, Iterated (executions past) place r ∧
    ((ledger past).outputs place).get? r.iterator = some r.data
  /-- and the aggregate from then on. -/
  closed : ∀ earlier r later, past = earlier ++ ⟨place, .closed r⟩ :: later →
    r.iterator ∈ f.settled ∧ (∀ r' ∈ f.pending, r'.iterator ≠ r.iterator) ∧
      (∃ count, (ledger earlier).iterations place r = List.range count) ∧
      ((ledger past).outputs place).get? r.iterator = some ((ledger earlier).aggregated place r)

/-- What is ahead of a frame has not happened yet. -/
structure Fresh (g : Graph) (past : List Event) (place : Place) (f : Frame) : Prop where
  yields : ∀ y ∈ (ledger past).yields, place <:+ y.place → ¬ f.Ahead g y.id
  untouched : ∀ e ∈ past, ∀ I k, (I, k) :: place <:+ e.place → ¬ f.Unfinished I

variable {g : Graph} {past more : List Event} {place : Place} {f f₁ f₂ f' : Frame}
  {s s₁ s₂ : Ongoing ω} {ids : List String} {ran : List (Task × Ended)}

theorem data_regionLeft {n : Node} {x : Execution} {r : PendingRegion}
    (left : regionLeft n x = some r) : r.data = x.data := by
  unfold regionLeft at left
  split at left
  · cases left
    rfl
  · cases left

/-- An event in which nothing is yielded leaves everything as it is. -/
theorem Mirrors.quiet (mirrors : f.Mirrors g past place) {e : Event}
    (ledger_eq : ledger (past ++ [e]) = ledger past)
    (executions_eq : executions (past ++ [e]) = executions past)
    (other : ∀ r, e.what ≠ .closed r) (scope : f'.scope = f.scope)
    (outputs : f'.outputs = f.outputs) (pending : f'.pending = f.pending)
    (settled : f.settled ⊆ f'.settled) :
    f'.Mirrors g (past ++ [e]) place := by
  obtain ⟨chained, homed, executed, outputs_eq, scope_eq, waits, closed⟩ := mirrors
  rw [← ledger_eq] at homed executed outputs_eq scope_eq waits closed
  rw [← executions_eq] at executed waits
  refine ⟨chained, homed, executed, outputs.trans outputs_eq, fun id => scope ▸ scope_eq id,
    pending ▸ waits, fun earlier r later split => ?_⟩
  obtain ⟨rest, split⟩ := split_of_not_mem split fun mem =>
    other r (congrArg Event.what (List.mem_singleton.1 mem)).symm
  obtain ⟨is_settled, gone, shown⟩ := closed earlier r rest split
  exact ⟨settled is_settled, pending ▸ gone, shown⟩

/-- What is ahead of a frame later was ahead of it before. -/
theorem Fresh.silent (fresh : f.Fresh g past place) {e : Event} (follows : Follows f f')
    (ledger_eq : ledger (past ++ [e]) = ledger past) (here : e.place = place) :
    f'.Fresh g (past ++ [e]) place := by
  refine ⟨fun y mem inside ahead => ?_, fun d mem I k inside unfinished => ?_⟩
  · rw [ledger_eq] at mem
    exact fresh.yields y mem inside (follows.ahead ahead)
  · rcases List.mem_append.1 mem with old | last
    · exact fresh.untouched d old I k inside (follows.unfinished unfinished)
    · rw [List.mem_singleton.1 last, here] at inside
      exact not_cons_suffix _ _ inside

section

variable (wf : g.WellFormed) (acyclic : g.Acyclic)
include wf acyclic

/-- A wave keeps this. -/
theorem Mirrors.waved (mirrors : f₁.Mirrors g past place) (sound : f₁.Sound g place)
    (waved : Waved g f₁ s₁ ids ran f₂ s₂) :
    f₂.Mirrors g (past ++ ⟨place, .dispatched (f₁.tasks (Plane.ofGraph g) ids)⟩ ::
      ran.map fun r => ⟨place, .settled r.1 r.2⟩) place := by
  have grows := ledger_wave past place (f₁.tasks (Plane.ofGraph g) ids) ran
  have listed : executions (past ++ ⟨place, .dispatched (f₁.tasks (Plane.ofGraph g) ids)⟩ ::
      ran.map fun r => ⟨place, .settled r.1 r.2⟩) =
        executions past ++ ran.map fun r => ⟨place, r.1, r.2⟩ := by
    rw [executions_append, ← executions_map_settled]
    rfl
  have began {y : Yield} (mem : y ∈ waveYields place ran) : y.place = place ∧ y.id ∈ ids := by
    obtain ⟨r, r_mem, rfl⟩ := List.mem_map.1 mem
    exact ⟨rfl, waved.ranIds_sublist.subset (List.mem_map_of_mem r_mem)⟩
  have candidate {y : Yield} (mem : y ∈ waveYields place ran) : y.id ∈ g.candidatesAt place :=
    sound.shape.mem_candidates (waved.members (began mem).2)
  have distinct : (ranIds ran).Nodup := waved.distinct.sublist waved.ranIds_sublist
  -- a member that is settled already yields nothing
  have kept {id : String} (settled : id ∈ f₁.settled) :
      ((ledger (past ++ ⟨place, .dispatched (f₁.tasks (Plane.ofGraph g) ids)⟩ ::
        ran.map fun r => ⟨place, .settled r.1 r.2⟩)).outputs place).get? id =
          ((ledger past).outputs place).get? id :=
    grows.get?_outputs_of_stranger fun y mem same => waved.fresh _ (began mem).2 (same ▸ settled)
  refine ⟨mirrors.chained, fun y mem q suffix => ?_, fun y mem => ?_, ?_, fun id => ?_,
    fun r mem => ?_, fun earlier r later split => ?_⟩
  · rw [grows.yields] at mem
    rcases List.mem_append.1 mem with old | new
    · exact mirrors.homed y old q suffix
    · exact mirrors.chained.candidates wf acyclic ((began new).1 ▸ suffix) (candidate new)
  · rw [listed]
    rw [grows.yields] at mem
    rcases List.mem_append.1 mem with old | new
    · obtain ⟨x, x_mem, there⟩ := mirrors.executed y old
      exact ⟨x, List.mem_append_left _ x_mem, there⟩
    · obtain ⟨r, r_mem, rfl⟩ := List.mem_map.1 new
      exact ⟨_, List.mem_append_right _ (List.mem_map_of_mem r_mem), rfl, rfl⟩
  · rw [waved.frame_eq, outputs_settleRan, grows.outputs_eq, map_entry_waveYields,
      ← mirrors.outputs]
    rfl
  · rw [waved.frame_eq, scope_settleRan, Entries.get?_putAll, grows.visible_eq
      (fun y mem => candidate mem), map_entry_waveYields, ← mirrors.scope]
    rfl
  · rw [listed]
    rw [waved.pending_eq] at mem
    rcases List.mem_append.1 mem with old | new
    · obtain ⟨⟨t, ended, x_mem, left⟩, shown⟩ := mirrors.pending r old
      refine ⟨⟨t, ended, List.mem_append_left _ x_mem, left⟩, ?_⟩
      rw [kept (sound.pending_settled r old), shown]
    · obtain ⟨x, x_mem, left⟩ := List.mem_filterMap.1 new
      refine ⟨⟨x.1, x.2, List.mem_append_right _ (List.mem_map_of_mem x_mem), left⟩, ?_⟩
      rw [grows.outputs_eq, Entries.get?_putAll, map_entry_waveYields, iterator_regionLeft left,
        get?_waveOutputs distinct x_mem, data_regionLeft left]
      rfl
  · have other : ⟨place, .closed r⟩ ∉ (⟨place, .dispatched (f₁.tasks (Plane.ofGraph g) ids)⟩ ::
        ran.map fun r => ⟨place, .settled r.1 r.2⟩ : List Event) := by simp
    obtain ⟨rest, split⟩ := split_of_not_mem split other
    obtain ⟨settled, gone, count, shown⟩ := mirrors.closed earlier r rest split
    refine ⟨waved.follows.settled settled, fun r' mem => ?_, count, (kept settled).trans shown⟩
    rw [waved.pending_eq] at mem
    rcases List.mem_append.1 mem with old | new
    · exact gone r' old
    · rintro same
      obtain ⟨x, x_mem, left⟩ := List.mem_filterMap.1 new
      refine waved.fresh r.iterator ?_ settled
      rw [← same, iterator_regionLeft left]
      exact waved.ranIds_sublist.subset (List.mem_map_of_mem x_mem)

end

/-- In a run that goes on, what is ahead of a frame after a wave has not happened yet. -/
theorem Fresh.waved (wf : g.WellFormed) (acyclic : g.Acyclic) (fresh : f₁.Fresh g past place)
    (sound : f₁.Sound g place) (waved : Waved g f₁ s₁ ids ran f₂ s₂)
    (goes_on : s₂.stopped = false) :
    f₂.Fresh g (past ++ ⟨place, .dispatched (f₁.tasks (Plane.ofGraph g) ids)⟩ ::
      ran.map fun r => ⟨place, .settled r.1 r.2⟩) place := by
  have grows := ledger_wave past place (f₁.tasks (Plane.ofGraph g) ids) ran
  have sound₂ := waved.sound wf sound goes_on
  refine ⟨fun y mem inside ahead => ?_, fun e mem I k inside unfinished => ?_⟩
  · rw [grows.yields] at mem
    rcases List.mem_append.1 mem with old | new
    · exact fresh.yields y old inside (waved.follows.ahead ahead)
    · obtain ⟨r, r_mem, rfl⟩ := List.mem_map.1 new
      refine sound₂.not_ahead_of_settled wf acyclic ?_ ahead
      rw [waved.settled_eq]
      exact List.mem_append_left _ (waved.ranIds_sublist.subset (List.mem_map_of_mem r_mem))
  · rcases List.mem_append.1 mem with old | new
    · exact fresh.untouched e old I k inside (waved.follows.unfinished unfinished)
    · have here : e.place = place := by
        rcases List.mem_cons.1 new with rfl | settled
        · rfl
        · obtain ⟨x, -, rfl⟩ := List.mem_map.1 settled
          rfl
      exact not_cons_suffix _ _ (here ▸ inside)

end Frame

/-! ## Regions -/

theorem filter_lt_range {n m : Nat} (le : n ≤ m) :
    (List.range m).filter (fun k => decide (k < n)) = List.range n := by
  induction m with
  | zero => rw [Nat.le_zero.1 le]; rfl
  | succ m ih =>
      rw [List.range_succ, List.filter_append]
      rcases Nat.lt_or_eq_of_le le with lt | rfl
      · rw [ih (Nat.le_of_lt_succ lt)]
        simp [Nat.not_lt.2 (Nat.le_of_lt_succ lt)]
      · rw [List.filter_eq_self.2 fun k mem => ?_, List.range_succ]
        · simp
        · simpa using Nat.lt_succ_of_lt (List.mem_range.1 mem)

/-- A region that runs, between two of its iterations. -/
structure UnderWay (g : Graph) (before inner past : List Event) (place : Place) (f : Frame)
    (r : PendingRegion) (outputs : List (Entries Json)) (new : List Yield) : Prop where
  split : past = before ++ ⟨place, .opened r true⟩ :: inner
  sound : f.Sound g place
  pending : r ∈ f.pending
  mirrors : f.Mirrors g before place
  fresh : f.Fresh g before place
  within : ∀ e ∈ inner, ∃ k < outputs.length, (r.iterator, k) :: place <:+ e.place
  homed : ∀ y ∈ (ledger past).yields, ∀ q, q <:+ y.place → y.id ∈ g.candidatesAt q
  executed : ∀ y ∈ (ledger past).yields, ∃ x ∈ executions past, x.id = y.id ∧ x.place = y.place
  grows : Ledger.Grows place (ledger before) new (ledger past)
  inside : ∀ y ∈ new, ∃ k < outputs.length, (r.iterator, k) :: place <:+ y.place
  /-- The outputs of the iterations are what has been yielded since the region began, -/
  total : ∀ m : Entries Json, outputs.foldl Entries.putAll m = m.putAll (new.map Yield.entry)
  /-- each of them what was yielded in its iteration. -/
  left : ∀ k (lt : k < outputs.length),
    outputs[k] = (ledger past).outputs ((r.iterator, k) :: place)
  length_le : outputs.length ≤ r.payloads.length
  entered : ∀ k < outputs.length, ∃ child, ⟨(r.iterator, k) :: place, .entered child⟩ ∈ inner
  payload : ∀ k, (ledger past).payload? place r.iterator k = r.payloads[k]?

namespace UnderWay

variable {g : Graph} {before inner past : List Event} {place : Place} {f : Frame}
  {r : PendingRegion} {outputs : List (Entries Json)} {new : List Yield} {k : Nat}

theorem opened (sound : f.Sound g place) (pending : r ∈ f.pending)
    (mirrors : f.Mirrors g before place) (fresh : f.Fresh g before place) :
    UnderWay g before [] (before ++ [⟨place, .opened r true⟩]) place f r [] [] := by
  have grows : Ledger.Grows place (ledger before) []
      (ledger (before ++ [⟨place, .opened r true⟩])) := .silent before rfl (List.suffix_refl _)
  have listed : executions (before ++ [⟨place, .opened r true⟩]) = executions before :=
    executions_concat before (by simp)
  refine ⟨rfl, sound, pending, mirrors, fresh, by simp, ?_, ?_, grows, by simp, fun m => rfl,
    fun k lt => absurd lt (Nat.not_lt_zero k), Nat.zero_le _,
    fun k lt => absurd lt (Nat.not_lt_zero k), fun k => ?_⟩
  · rw [grows.yields, List.append_nil]
    exact mirrors.homed
  · rw [grows.yields, List.append_nil, listed]
    exact mirrors.executed
  · rw [ledger_concat]
    simp [Ledger.payload?, Ledger.note]

theorem unfinished (under : UnderWay g before inner past place f r outputs new) :
    r.iterator ∈ g.candidatesAt place ∧ f.Unfinished r.iterator :=
  under.sound.of_pending under.pending

/-- Nothing has happened in an iteration that has not begun, -/
theorem untouched (under : UnderWay g before inner past place f r outputs new) :
    ∀ e ∈ past, ¬ (r.iterator, outputs.length) :: place <:+ e.place := by
  intro e mem there
  rw [under.split] at mem
  rcases List.mem_append.1 mem with old | mem
  · exact under.fresh.untouched e old _ _ there under.unfinished.2
  · rcases List.mem_cons.1 mem with rfl | mem
    · exact not_cons_suffix _ _ there
    · obtain ⟨k, lt, here⟩ := under.within e mem
      cases eq_of_suffix_of_length_eq there here rfl
      exact Nat.lt_irrefl _ lt

/-- and nothing has been yielded in it. -/
theorem none_inside (wf : g.WellFormed) (acyclic : g.Acyclic)
    (under : UnderWay g before inner past place f r outputs new) :
    ∀ y ∈ (ledger past).yields, ¬ (r.iterator, outputs.length) :: place <:+ y.place := by
  intro y mem there
  have outer := (List.suffix_cons (r.iterator, outputs.length) place).trans there
  rw [under.grows.yields] at mem
  rcases List.mem_append.1 mem with old | recent
  · have repeats : g.Repeats r.iterator y.id :=
      (Plane.mem_regionOf wf acyclic).1 (under.mirrors.homed y old _ there)
    exact under.fresh.yields y old outer (Or.inr ⟨r.iterator, under.unfinished.2, repeats⟩)
  · obtain ⟨k, lt, here⟩ := under.inside y recent
    cases eq_of_suffix_of_length_eq there here rfl
    exact Nat.lt_irrefl _ lt

theorem outputs_eq_nil (wf : g.WellFormed) (acyclic : g.Acyclic)
    (under : UnderWay g before inner past place f r outputs new) :
    (ledger past).outputs ((r.iterator, outputs.length) :: place) = [] := by
  have none_of : (ledger past).yields.filter
      (fun y => ((r.iterator, outputs.length) :: place).isSuffixOf y.place) = [] :=
    List.filter_eq_nil_iff.2 fun y mem => by simpa using under.none_inside wf acyclic y mem
  rw [Ledger.outputs, none_of]
  rfl

/-- Nothing of a region is to be seen before it runs. -/
theorem get?_scope (wf : g.WellFormed) (acyclic : g.Acyclic)
    (under : UnderWay g before inner past place f r outputs new) {id : String}
    (in_region : id ∈ (Plane.ofGraph g).regionOf r.iterator) : f.scope.get? id = none := by
  obtain ⟨candidate, unfinished⟩ := under.unfinished
  have repeats : g.Repeats r.iterator id := (Plane.mem_regionOf wf acyclic).1 in_region
  have inside := under.sound.shape.scope.closed _ candidate id repeats
  rw [under.mirrors.scope, Ledger.visible_of_candidate inside]
  refine Entries.get?_ofList_eq_none_iff.2 fun v mem => ?_
  obtain ⟨y, y_mem, rfl⟩ := List.mem_map.1 mem
  obtain ⟨y_mem, there⟩ := List.mem_filter.1 y_mem
  rintro rfl
  exact under.fresh.yields y y_mem (by simpa using there) (Or.inr ⟨_, unfinished, repeats⟩)

/-- Of the nodes of its region a frame of an iteration shows nothing as it begins, of the iterator
the payload, and of any other node what the frame around shows. -/
theorem scope_childFrame (wf : g.WellFormed) (acyclic : g.Acyclic)
    (under : UnderWay g before inner past place f r outputs new)
    (more : outputs.length < r.payloads.length) (id : String) :
    (g.childFrame f r outputs.length).scope.get? id =
      (ledger past).visible g ((r.iterator, outputs.length) :: place) id := by
  have around : (g.childFrame f r outputs.length).scope =
      f.scope.put r.iterator (r.payloads.getD outputs.length .null) := rfl
  rw [around]
  by_cases in_region : id ∈ (Plane.ofGraph g).regionOf r.iterator
  · have other : id ≠ r.iterator := ((Plane.mem_regionOf wf acyclic).1 in_region).ne acyclic
    rw [Ledger.visible_cons_of_mem in_region, under.outputs_eq_nil wf acyclic,
      Entries.get?_put_of_ne other, under.get?_scope wf acyclic in_region]
    rfl
  · have beyond : (ledger past).visible g ((r.iterator, outputs.length) :: place) id =
        if id = r.iterator then (ledger past).payload? place r.iterator outputs.length
        else (ledger past).visible g place id := if_neg in_region
    rw [beyond, Entries.get?_put]
    split
    · rw [under.payload, List.getD_eq_getElem?_getD, List.getElem?_eq_getElem more]
      rfl
    · have stranger : ∀ y ∈ new, y.id ≠ id := by
        rintro y mem rfl
        obtain ⟨k, lt, there⟩ := under.inside y mem
        refine in_region (under.homed y ?_ _ there)
        rw [under.grows.yields]
        exact List.mem_append_right _ mem
      rw [under.mirrors.scope, under.grows.visible_of_stranger (List.suffix_refl _) stranger]

/-- An iteration that begins. -/
theorem enters (wf : g.WellFormed) (acyclic : g.Acyclic)
    (under : UnderWay g before inner past place f r outputs new)
    (more : outputs.length < r.payloads.length) :
    (g.childFrame f r outputs.length).Mirrors g
        (past ++ [⟨(r.iterator, outputs.length) :: place,
          .entered (g.childFrame f r outputs.length)⟩])
        ((r.iterator, outputs.length) :: place) ∧
      (g.childFrame f r outputs.length).Fresh g
        (past ++ [⟨(r.iterator, outputs.length) :: place,
          .entered (g.childFrame f r outputs.length)⟩])
        ((r.iterator, outputs.length) :: place) := by
  have grows : Ledger.Grows ((r.iterator, outputs.length) :: place) (ledger past) []
      (ledger (past ++ [⟨(r.iterator, outputs.length) :: place,
        .entered (g.childFrame f r outputs.length)⟩])) := .silent past rfl (List.suffix_refl _)
  have listed : executions (past ++ [⟨(r.iterator, outputs.length) :: place,
      .entered (g.childFrame f r outputs.length)⟩]) = executions past :=
    executions_concat past (by simp)
  have apart := under.none_inside wf acyclic
  refine ⟨⟨⟨under.unfinished.1, under.mirrors.chained⟩, ?_, ?_, ?_, fun id => ?_,
    fun _ mem => absurd mem List.not_mem_nil, fun earlier r' later split => ?_⟩, ?_, ?_⟩
  · rw [grows.yields, List.append_nil]
    exact under.homed
  · rw [grows.yields, List.append_nil, listed]
    exact under.executed
  · rw [grows.outputs_eq, under.outputs_eq_nil wf acyclic]
    rfl
  · rw [grows.visible_of_stranger (List.suffix_refl _) (by simp),
      under.scope_childFrame wf acyclic more]
  · obtain ⟨rest, past_eq⟩ := split_of_not_mem split (by simp)
    exact absurd (List.suffix_refl _) (under.untouched _ (past_eq ▸ List.mem_append_right _
      List.mem_cons_self))
  · rw [grows.yields, List.append_nil]
    exact fun y mem there => absurd there (apart y mem)
  · intro e mem I k deeper
    have there := (List.suffix_cons (I, k) _).trans deeper
    rcases List.mem_append.1 mem with old | last
    · exact absurd there (under.untouched e old)
    · rw [List.mem_singleton.1 last] at deeper
      exact absurd deeper (not_cons_suffix _ _)

/-- An iteration that is over. -/
theorem leaves (wf : g.WellFormed) (acyclic : g.Acyclic)
    (under : UnderWay g before inner past place f r outputs new)
    (more : outputs.length < r.payloads.length) {part : List Event} {f' : Frame}
    (within : ∀ e ∈ part, (r.iterator, outputs.length) :: place <:+ e.place)
    (mirrors : f'.Mirrors g (past ++ ⟨(r.iterator, outputs.length) :: place,
      .entered (g.childFrame f r outputs.length)⟩ :: part)
      ((r.iterator, outputs.length) :: place)) :
    ∃ new', UnderWay g before (inner ++ ⟨(r.iterator, outputs.length) :: place,
        .entered (g.childFrame f r outputs.length)⟩ :: part)
      (past ++ ⟨(r.iterator, outputs.length) :: place,
        .entered (g.childFrame f r outputs.length)⟩ :: part) place f r (outputs ++ [f'.outputs])
        new' := by
  let inside_place := (r.iterator, outputs.length) :: place
  let e : Event := ⟨inside_place, .entered (g.childFrame f r outputs.length)⟩
  have here : ∀ d ∈ e :: part, inside_place <:+ d.place := by
    intro d mem
    rcases List.mem_cons.1 mem with rfl | mem
    · exact List.suffix_refl _
    · exact within d mem
  obtain ⟨yields, grows⟩ := Ledger.Grows.events past here
  have outer : place <:+ inside_place := List.suffix_cons _ _
  have length_eq : (outputs ++ [f'.outputs]).length = outputs.length + 1 := by simp
  have left_eq : f'.outputs = Entries.ofList (yields.map Yield.entry) := by
    rw [mirrors.outputs, grows.outputs_eq, under.outputs_eq_nil wf acyclic]
    rfl
  refine ⟨new ++ yields, by rw [under.split]; simp, under.sound, under.pending, under.mirrors,
    under.fresh, fun d mem => ?_, mirrors.homed, mirrors.executed,
    under.grows.trans (grows.outer outer), fun y mem => ?_, fun m => ?_, fun k lt => ?_, ?_,
    fun k lt => ?_, fun k => ?_⟩
  · rw [length_eq]
    rcases List.mem_append.1 mem with old | recent
    · obtain ⟨k, lt, there⟩ := under.within d old
      exact ⟨k, Nat.lt_succ_of_lt lt, there⟩
    · exact ⟨outputs.length, Nat.lt_succ_self _, here d recent⟩
  · rw [length_eq]
    rcases List.mem_append.1 mem with old | recent
    · obtain ⟨k, lt, there⟩ := under.inside y old
      exact ⟨k, Nat.lt_succ_of_lt lt, there⟩
    · exact ⟨outputs.length, Nat.lt_succ_self _, grows.inside y recent⟩
  · rw [List.foldl_append, under.total, List.map_append, Entries.putAll_append, left_eq]
    exact Entries.putAll_ofList _ _
  · rw [length_eq] at lt
    rcases Nat.lt_or_eq_of_le (Nat.le_of_lt_succ lt) with before_last | rfl
    · rw [List.getElem_append_left before_last, under.left k before_last]
      refine (grows.outputs_of_apart fun y mem there => ?_).symm
      have same : (r.iterator, k) :: place = (r.iterator, outputs.length) :: place :=
        eq_of_suffix_of_length_eq there (grows.inside y mem) rfl
      cases same
      exact Nat.lt_irrefl _ before_last
    · rw [List.getElem_concat_length, mirrors.outputs]
      rfl
  · rw [length_eq]
    exact more
  · rw [length_eq] at lt
    rcases Nat.lt_or_eq_of_le (Nat.le_of_lt_succ lt) with before_last | rfl
    · obtain ⟨child, mem⟩ := under.entered k before_last
      exact ⟨child, List.mem_append_left _ mem⟩
    · exact ⟨_, List.mem_append_right _ List.mem_cons_self⟩
  · have shorter : ¬ inside_place <:+ place := not_cons_suffix _ _
    rw [grows.payload?_eq shorter, under.payload]

/-- The iterations that have been run are those that have left outputs. -/
theorem iterations_eq (under : UnderWay g before inner past place f r outputs new) :
    (ledger past).iterations place r = List.range outputs.length := by
  have ran (k : Nat) : (ledger past).entered.contains ((r.iterator, k) :: place) =
      decide (k < outputs.length) := by
    rw [Bool.eq_iff_iff, List.contains_iff_mem, mem_entered, decide_eq_true_iff, under.split]
    constructor
    · rintro ⟨child, mem⟩
      rcases List.mem_append.1 mem with old | mem
      · exact absurd under.unfinished.2
          (under.fresh.untouched _ old r.iterator k (List.suffix_refl _))
      · rcases List.mem_cons.1 mem with same | mem
        · exact absurd (congrArg Event.what same) (by simp)
        · obtain ⟨j, lt, there⟩ := under.within _ mem
          have same : (r.iterator, j) :: place = (r.iterator, k) :: place :=
            eq_of_suffix_of_length_eq there (List.suffix_refl _) rfl
          cases same
          exact lt
    · intro lt
      obtain ⟨child, mem⟩ := under.entered k lt
      exact ⟨child, List.mem_append_right _ (List.mem_cons_of_mem _ mem)⟩
  unfold Ledger.iterations
  rw [List.filter_congr fun k _ => ran k]
  exact filter_lt_range under.length_le

/-- What the ledger says of a region is what its iterations have left. -/
theorem aggregated_eq (under : UnderWay g before inner past place f r outputs new) :
    (ledger past).aggregated place r = aggregate r.data outputs := by
  rw [Ledger.aggregated, under.iterations_eq]
  refine congrArg (aggregate r.data) (List.ext_getElem (by simp) fun k _ lt => ?_)
  rw [List.getElem_map, List.getElem_range, under.left k lt]

/-- What the iterator yields when its region has run. -/
def last (place : Place) (r : PendingRegion) (outputs : List (Entries Json)) : Yield :=
  ⟨place, r.iterator, aggregate r.data outputs⟩

/-- What has been yielded since the region began, when it has run. -/
theorem grows_closed (under : UnderWay g before inner past place f r outputs new) :
    Ledger.Grows place (ledger before) (new ++ [last place r outputs])
      (ledger (past ++ [⟨place, .closed r⟩])) := by
  have said : (ledger past).yield? ⟨place, .closed r⟩ = some (last place r outputs) :=
    congrArg (fun value => some (Yield.mk place r.iterator value)) under.aggregated_eq
  have closing := Ledger.Grows.note (ledger past) (e := ⟨place, .closed r⟩) (List.suffix_refl _)
  rw [said] at closing
  rw [ledger_concat]
  exact under.grows.trans closing

/-- A region that has run yields on top of what was yielded before it was closed. -/
theorem yields_closed (under : UnderWay g before inner past place f r outputs new) :
    (ledger (past ++ [⟨place, .closed r⟩])).yields =
      (ledger past).yields ++ [last place r outputs] := by
  rw [under.grows_closed.yields, under.grows.yields, List.append_assoc]

/-- What the end of a region puts is what has been yielded. -/
theorem putAll_regionOutputs (under : UnderWay g before inner past place f r outputs new)
    (m : Entries Json) : m.putAll (Frame.regionOutputs r outputs) =
      m.putAll ((new ++ [last place r outputs]).map Yield.entry) := by
  rw [Frame.regionOutputs, under.total, List.map_append, Entries.putAll_append,
    Entries.putAll_append]
  exact congrArg (Entries.putAll · _) (Entries.putAll_ofList _ _)

section

variable (wf : g.WellFormed) (acyclic : g.Acyclic)
include wf acyclic

/-- Whatever a region yields is of its nodes, or of its iterator. -/
theorem inUnit_of_mem (under : UnderWay g before inner past place f r outputs new) {y : Yield}
    (mem : y ∈ new ++ [last place r outputs]) : g.InUnit r.iterator y.id := by
  rcases List.mem_append.1 mem with recent | final
  · have known : y ∈ (ledger past).yields := by
      rw [under.grows.yields]
      exact List.mem_append_right _ recent
    obtain ⟨k, -, there⟩ := under.inside y recent
    exact Or.inr ((Plane.mem_regionOf wf acyclic).1 (under.homed y known _ there))
  · exact Or.inl (List.mem_singleton.1 final ▸ rfl)

/-- The outputs of other members stay. -/
theorem get?_outputs_closed (under : UnderWay g before inner past place f r outputs new)
    {id : String} (member : id ∈ f.members) (other : id ≠ r.iterator) :
    ((ledger (past ++ [⟨place, .closed r⟩])).outputs place).get? id =
      ((ledger before).outputs place).get? id := by
  refine under.grows_closed.get?_outputs_of_stranger fun y mem => ?_
  rintro rfl
  rcases under.inUnit_of_mem wf acyclic mem with same | repeats
  · exact other same
  · exact under.sound.shape.not_repeats wf acyclic member under.unfinished.1 repeats

/-- The frame shows the aggregate of a region that has run, now or before. -/
theorem closed_closed (under : UnderWay g before inner past place f r outputs new)
    {earlier later : List Event} {r' : PendingRegion}
    (split : past ++ [⟨place, .closed r⟩] = earlier ++ ⟨place, .closed r'⟩ :: later) :
    r'.iterator ∈ f.settled ∧
      (∀ r₂ ∈ (f.takeRegion r.iterator).pending, r₂.iterator ≠ r'.iterator) ∧
      (∃ count, (ledger earlier).iterations place r' = List.range count) ∧
      ((ledger (past ++ [⟨place, .closed r⟩])).outputs place).get? r'.iterator =
        some ((ledger earlier).aggregated place r') := by
  rcases List.eq_nil_or_concat later with rfl | ⟨rest, d, rfl⟩
  · -- the region that has just run
    obtain ⟨rfl, final⟩ := List.append_inj' split rfl
    cases final
    refine ⟨under.sound.pending_settled r under.pending,
      fun r' mem => (Frame.mem_pending_takeRegion.1 mem).2, ⟨_, under.iterations_eq⟩, ?_⟩
    rw [under.aggregated_eq, under.grows_closed.outputs_eq, List.map_append,
      Entries.putAll_append]
    exact Entries.get?_put_self _ _ _
  · -- a region that has run before
    have split : past ++ [⟨place, .closed r⟩] =
        (earlier ++ ⟨place, .closed r'⟩ :: rest) ++ [d] := by simpa using split
    obtain ⟨past_eq, -⟩ := List.append_inj' split rfl
    rw [under.split] at past_eq
    have other : ⟨place, .closed r'⟩ ∉ (⟨place, .opened r true⟩ :: inner : List Event) := by
      intro mem
      rcases List.mem_cons.1 mem with same | mem
      · exact absurd (congrArg Event.what same) (by simp)
      · obtain ⟨j, -, here⟩ := under.within _ mem
        exact not_cons_suffix _ _ here
    obtain ⟨rest, before_eq⟩ := split_of_not_mem past_eq other
    obtain ⟨settled, gone, count, shown⟩ := under.mirrors.closed earlier r' rest before_eq
    have apart : r'.iterator ≠ r.iterator := (gone r under.pending).symm
    exact ⟨settled, fun r₂ mem => gone r₂ (Frame.mem_pending_takeRegion.1 mem).1, count,
      (under.get?_outputs_closed wf acyclic (under.sound.settled_sub settled) apart).trans shown⟩

theorem mirrors_closed (under : UnderWay g before inner past place f r outputs new) :
    ((f.takeRegion r.iterator).settleRegion r outputs).Mirrors g
      (past ++ [⟨place, .closed r⟩]) place := by
  obtain ⟨candidate, -⟩ := under.unfinished
  have grows := under.grows_closed
  have listed : executions (past ++ [⟨place, .closed r⟩]) = executions past :=
    executions_concat past (by simp)
  have earlier_ran : executions before ⊆ executions past := by
    rw [under.split, executions_append]
    exact List.subset_append_left _ _
  have candidates : ∀ y ∈ new ++ [last place r outputs], y.id ∈ g.candidatesAt place := by
    intro y mem
    rcases under.inUnit_of_mem wf acyclic mem with same | repeats
    · exact same ▸ candidate
    · exact under.sound.shape.scope.closed _ candidate _ repeats
  refine ⟨under.mirrors.chained, fun y mem q suffix => ?_, fun y mem => ?_, ?_, fun id => ?_,
    fun r' mem => ?_, fun earlier r' later split => under.closed_closed wf acyclic split⟩
  · rw [under.yields_closed] at mem
    rcases List.mem_append.1 mem with old | final
    · exact under.homed y old q suffix
    · rw [List.mem_singleton.1 final] at suffix ⊢
      exact under.mirrors.chained.candidates wf acyclic suffix candidate
  · rw [listed]
    rw [under.yields_closed] at mem
    rcases List.mem_append.1 mem with old | final
    · exact under.executed y old
    · obtain ⟨⟨t, ended, x_mem, left⟩, -⟩ := under.mirrors.pending r under.pending
      rw [List.mem_singleton.1 final]
      exact ⟨_, earlier_ran x_mem, (Frame.iterator_regionLeft left).symm, rfl⟩
  · rw [Frame.outputs_settleRegion, under.putAll_regionOutputs, grows.outputs_eq,
      under.mirrors.outputs]
  · rw [Frame.scope_settleRegion, under.putAll_regionOutputs, Entries.get?_putAll,
      grows.visible_eq candidates, under.mirrors.scope]
  · obtain ⟨waits, other⟩ := Frame.mem_pending_takeRegion.1 mem
    obtain ⟨⟨t, ended, x_mem, left⟩, shown⟩ := under.mirrors.pending r' waits
    have member := under.sound.settled_sub (under.sound.pending_settled r' waits)
    rw [listed]
    exact ⟨⟨t, ended, earlier_ran x_mem, left⟩,
      (under.get?_outputs_closed wf acyclic member other).trans shown⟩

theorem fresh_closed (under : UnderWay g before inner past place f r outputs new) :
    ((f.takeRegion r.iterator).settleRegion r outputs).Fresh g
      (past ++ [⟨place, .closed r⟩]) place := by
  refine ⟨fun y mem there ahead => ?_, fun e mem I k there unfinished => ?_⟩
  · rw [under.grows_closed.yields] at mem
    rcases List.mem_append.1 mem with old | recent
    · exact under.fresh.yields y old there (Frame.follows_settleRegion.ahead ahead)
    · exact not_ahead_settleRegion wf acyclic under.sound under.pending
        (under.inUnit_of_mem wf acyclic recent) ahead
  · rw [under.split] at mem
    rcases List.mem_append.1 mem with mem | final
    · rcases List.mem_append.1 mem with old | mem
      · exact under.fresh.untouched e old I k there
          (Frame.follows_settleRegion.unfinished unfinished)
      · rcases List.mem_cons.1 mem with rfl | mem
        · exact not_cons_suffix _ _ there
        · obtain ⟨j, -, here⟩ := under.within e mem
          cases eq_of_suffix_of_length_eq there here rfl
          exact not_unfinished_settleRegion under.sound under.pending unfinished
    · rw [List.mem_singleton.1 final] at there
      exact not_cons_suffix _ _ there

end

end UnderWay

/-! ## Runs -/

/-- Skipping does not stop a run. -/
theorem Begun.goes_on₁ {request : RunRequest} {g : Graph} {place : Place} {f f₁ : Frame}
    {s s₁ : Ongoing ω} (begun : Begun request g place f s f₁ s₁) : s₁.stopped = false := by
  have same : s₁.stopped = s.stopped := by
    unfold Ongoing.stopped World.isCancelled
    rw [begun.world_eq, begun.progress_eq]
    rfl
  rw [same, begun.goes_on]

/-- Each step of a run keeps what frames show. -/
theorem mirrors_invariant {h : Host ω} (request : RunRequest) {g : Graph} (wf : g.WellFormed)
    (acyclic : g.Acyclic) (alone : h.LeavesRunsAlone) :
    RunInvariant h request g
      (fun past place f s =>
        f.Mirrors g past place ∧ (s.stopped = false → f.Fresh g past place))
      (fun past place f r outputs _ => ∃ before inner new,
        UnderWay g before inner past place f r outputs new) where
  skips := by
    rintro past place f f₁ s s₁ ⟨mirrors, fresh⟩ begun
    have same : ledger (past ++ [⟨place, .skipped (f.skippedNext (Plane.ofGraph g))⟩]) =
        ledger past := by
      simp [ledger_concat, Ledger.note, Ledger.yield?]
    have scope : f₁.scope = f.scope := begun.frame_eq ▸ Frame.skipAll_scope _ f
    have outputs : f₁.outputs = f.outputs := begun.frame_eq ▸ Frame.skipAll_outputs _ f
    refine ⟨mirrors.quiet same (executions_concat _ (by simp)) (by simp) scope outputs
      begun.pending_eq begun.follows.settled, fun _ => ?_⟩
    exact (fresh begun.goes_on).silent begun.follows same rfl
  ends := by
    rintro past place f f₁ s s₁ ⟨mirrors, fresh⟩ begun done
    have same : ledger (past ++ [⟨place, .finished f₁⟩]) = ledger past := by
      simp [ledger_concat, Ledger.note, Ledger.yield?]
    refine ⟨mirrors.quiet same (executions_concat _ (by simp)) (by simp) rfl rfl rfl
      (fun _ mem => mem), fun _ => ?_⟩
    exact (fresh begun.goes_on₁).silent (.refl f₁) same rfl
  waves := by
    rintro past place f f₁ f₂ s s₁ s₂ ids ran ⟨mirrors, fresh⟩ begun ready dispatched next
    have waved := begun.waved wf alone ready dispatched next
    have sound := begun.sound₁ wf
    exact ⟨mirrors.waved wf acyclic sound waved,
      fun goes_on => (fresh begun.goes_on₁).waved wf acyclic sound waved goes_on⟩
  opens := by
    rintro past place f f₁ s s₁ r ⟨mirrors, fresh⟩ begun pending ready
    exact ⟨past, [], [], .opened (begun.sound₁ wf) pending mirrors (fresh begun.goes_on₁)⟩
  enters := by
    rintro past place f₁ r outputs s ⟨before, inner, new, under⟩ goes_on more
    obtain ⟨mirrors, fresh⟩ := under.enters wf acyclic more
    exact ⟨mirrors, fun _ => fresh⟩
  leaves := by
    rintro past place f₁ r outputs s part f' s' ⟨before, inner, new, under⟩ more frame_run
      ⟨mirrors, -⟩
    have within : ∀ e ∈ part, (r.iterator, outputs.length) :: place <:+ e.place := fun e mem =>
      (touches_childFrame wf acyclic (frame_run.touches wf acyclic alone e mem)).1
    obtain ⟨new', under'⟩ := under.leaves wf acyclic more within mirrors
    exact ⟨before, _, new', under'⟩
  closes := by
    rintro past place f₁ r outputs s ⟨before, inner, new, under⟩ _
    exact ⟨under.mirrors_closed wf acyclic, fun _ => under.fresh_closed wf acyclic⟩

/-- A run begins with nothing on the ledger. -/
theorem mirrors_topFrame (g : Graph) :
    g.topFrame.Mirrors g [⟨[], .entered g.topFrame⟩] [] where
  chained := trivial
  homed := by simp [ledger, Ledger.note, Ledger.yield?]
  executed := by simp [ledger, Ledger.note, Ledger.yield?]
  outputs := rfl
  scope _ := rfl
  pending _ mem := nomatch mem
  closed earlier r later split := by
    have mem : ⟨[], .closed r⟩ ∈ [(⟨[], .entered g.topFrame⟩ : Event)] :=
      split ▸ List.mem_append_right _ List.mem_cons_self
    exact absurd (congrArg Event.what (List.mem_singleton.1 mem)) (by simp)

theorem fresh_topFrame (g : Graph) : g.topFrame.Fresh g [⟨[], .entered g.topFrame⟩] [] where
  yields := by simp [ledger, Ledger.note, Ledger.yield?]
  untouched e mem I k inside := by
    rw [List.mem_singleton.1 mem] at inside
    exact absurd inside (not_cons_suffix _ _)

end Flowline
