import Flowline.Graph.Cycle
import Flowline.Proofs.Graph.Reach

/-!
# The cycle test names a cycle

`Graph.cycleNode?` walks the graph depth first and then looks for a node that was finished with
before one of its predecessors.  `Walk.Sound` is what holds while the walk goes on: a node that
was met and is not finished reaches all that lies above it on the stack.  So whatever it leads to
is finished before it, or reaches it.

* `Graph.reaches_of_cycleNode?`: the node that is named lies on a cycle.
* `Graph.acyclic_of_cycleNode?_eq_none`: if none is named, there is no cycle.
-/

namespace Flowline

namespace Graph

variable {g : Graph}

theorem mem_targets_iff {id target : String} :
    target ∈ (g.outgoing id).map (·.2.target) ↔ g.Adj id target := by
  simp only [List.mem_map, mem_outgoing, Adj, and_assoc]

/-- The first place of an element that is not in front stands at the middle or behind it. -/
theorem split_behind {front rest above below : List String} {middle id : String}
    (split : front ++ middle :: rest = above ++ id :: below) (absent : id ∉ front) :
    (id = middle ∧ above = front) ∨
      ∃ between, above = front ++ middle :: between ∧ rest = between ++ id :: below := by
  rcases List.append_eq_append_iff.1 split with ⟨between, rfl, tail⟩ | ⟨between, rfl, tail⟩
  · cases between with
    | nil => exact Or.inl ⟨(List.cons.inj tail).1.symm, List.append_nil front⟩
    | cons top between =>
        obtain ⟨rfl, behind⟩ := List.cons.inj tail
        exact Or.inr ⟨between, rfl, behind⟩
  · cases between with
    | nil => exact Or.inl ⟨(List.cons.inj tail).1, (List.append_nil above).symm⟩
    | cons top between =>
        obtain ⟨rfl, -⟩ := List.cons.inj tail
        simp at absent

/-- What holds while a walk goes on. -/
structure Walk.Sound (g : Graph) (w : Walk) (stack : List String) : Prop where
  known : ∀ id ∈ stack, id ∈ g.ids
  loopless : ∀ id ∈ w.met, ¬ g.Adj id id
  kept : ∀ id ∈ w.met, id ∈ w.finished ∨ id ∈ stack
  distinct : w.finished.Nodup
  /-- A node that was met and is not finished reaches what lies above its first place on the
  stack. -/
  reaches : ∀ {above id rest}, stack = above ++ id :: rest → id ∉ above → id ∈ w.met →
    id ∉ w.finished → ∀ other ∈ above, g.Reaches id other
  /-- What such a node leads to is finished, lies above it, or reaches it. -/
  targets : ∀ {above id rest}, stack = above ++ id :: rest → id ∉ above → id ∈ w.met →
    id ∉ w.finished → ∀ target, g.Adj id target →
      target ∈ w.finished ∨ target ∈ above ∨ g.Reaches target id
  /-- What a finished node leads to was finished before it, or reaches it. -/
  order : ∀ {newer id older}, w.finished = newer ++ id :: older → ∀ target, g.Adj id target →
    target ∈ older ∨ g.Reaches target id

namespace Walk.Sound

variable {w : Walk} {id : String} {rest : List String}

/-- A node that was met and is not finished reaches the top of the stack. -/
theorem reaches_top (sound : w.Sound g (id :: rest)) {other : String} (met : other ∈ w.met)
    (unfinished : other ∉ w.finished) (differs : other ≠ id) : g.Reaches other id := by
  have on_stack : other ∈ id :: rest := (sound.kept other met).resolve_left unfinished
  obtain ⟨above, below, split, first⟩ := List.eq_append_cons_of_mem on_stack
  cases above with
  | nil => exact absurd (List.cons.inj split).1.symm differs
  | cons top above =>
      obtain rfl := (List.cons.inj split).1
      exact sound.reaches split first met unfinished _ List.mem_cons_self

/-- Meeting the top of the stack puts what it leads to above it. -/
theorem meet (wf : g.WellFormed) (sound : w.Sound g (id :: rest)) (new : id ∉ w.met)
    (loopless : ¬ g.Adj id id) {pushed : List String}
    (mem_pushed : ∀ target, target ∈ pushed ↔ g.Adj id target ∧ target ∉ id :: w.met) :
    Walk.Sound g { w with met := id :: w.met } (pushed ++ id :: rest) := by
  have top : id ∉ pushed := fun mem => ((mem_pushed id).1 mem).2 List.mem_cons_self
  -- an older node on the stack that is not finished had `id` above it before
  have deeper {above below : List String} {other : String}
      (split : pushed ++ id :: rest = above ++ other :: below) (first : other ∉ above)
      (met : other ∈ w.met) :
      ∃ between, above = pushed ++ id :: between ∧ id :: rest = (id :: between) ++ other :: below ∧
        other ∉ id :: between := by
    have unpushed : other ∉ pushed := fun mem =>
      ((mem_pushed other).1 mem).2 (List.mem_cons_of_mem _ met)
    rcases split_behind split unpushed with ⟨rfl, -⟩ | ⟨between, rfl, tail⟩
    · exact absurd met new
    · exact ⟨between, rfl, congrArg (id :: ·) tail, fun mem => first (List.mem_append_right _ mem)⟩
  have beside {above below : List String} (split : pushed ++ id :: rest = above ++ id :: below)
      (first : id ∉ above) : above = pushed := by
    rcases split_behind split top with ⟨-, same⟩ | ⟨between, rfl, -⟩
    · exact same
    · simp at first
  constructor
  · intro other mem
    rcases List.mem_append.1 mem with mem | mem
    · exact ((mem_pushed other).1 mem).1.target_mem wf
    · exact sound.known other mem
  · intro other met
    rcases List.mem_cons.1 met with rfl | met
    · exact loopless
    · exact sound.loopless other met
  · intro other met
    rcases List.mem_cons.1 met with rfl | met
    · exact Or.inr (by simp)
    · exact (sound.kept other met).imp_right (List.mem_append_right _)
  · exact sound.distinct
  · intro above other below split first met unfinished x x_above
    rcases List.mem_cons.1 met with rfl | met
    · obtain rfl := beside split first
      exact .single ((mem_pushed x).1 x_above).1
    · obtain ⟨between, rfl, old, first⟩ := deeper split first met
      have reaches := sound.reaches old first met unfinished
      rcases List.mem_append.1 x_above with x_pushed | x_between
      · exact .tail (reaches id List.mem_cons_self) ((mem_pushed x).1 x_pushed).1
      · exact reaches x x_between
  · intro above other below split first met unfinished target adj
    rcases List.mem_cons.1 met with rfl | met
    · obtain rfl := beside split first
      by_cases target_met : target ∈ w.met
      · by_cases finished : target ∈ w.finished
        · exact Or.inl finished
        · have differs : target ≠ other := fun same => loopless (same ▸ adj)
          exact Or.inr (Or.inr (sound.reaches_top target_met finished differs))
      · have differs : target ≠ other := fun same => loopless (same ▸ adj)
        exact Or.inr (Or.inl ((mem_pushed target).2 ⟨adj, by simp [differs, target_met]⟩))
    · obtain ⟨between, rfl, old, first⟩ := deeper split first met
      rcases sound.targets old first met unfinished target adj with finished | above | back
      · exact Or.inl finished
      · exact Or.inr (Or.inl (List.mem_append_right _ above))
      · exact Or.inr (Or.inr back)
  · exact sound.order

/-- Leaving the top of the stack finishes it. -/
theorem leave (sound : w.Sound g (id :: rest)) (met : id ∈ w.met) :
    Walk.Sound g { w with finished := if w.finished.contains id then w.finished
      else id :: w.finished } rest := by
  have finished_iff (other : String) : other ∈ (if w.finished.contains id then w.finished
      else id :: w.finished) ↔ other = id ∨ other ∈ w.finished := by
    split
    · next held =>
        have held : id ∈ w.finished := by simpa using held
        exact ⟨Or.inr, fun mem => mem.elim (fun same => same ▸ held) fun mem => mem⟩
    · exact List.mem_cons
  constructor
  · exact fun other mem => sound.known other (List.mem_cons_of_mem _ mem)
  · exact sound.loopless
  · intro other other_met
    rcases sound.kept other other_met with mem | mem
    · exact Or.inl ((finished_iff other).2 (Or.inr mem))
    · exact (List.mem_cons.1 mem).imp_left fun same => (finished_iff other).2 (Or.inl same)
  · show (if w.finished.contains id then w.finished else id :: w.finished).Nodup
    split
    · exact sound.distinct
    · next open_ => exact List.nodup_cons.2 ⟨by simpa using open_, sound.distinct⟩
  · intro above other below split first other_met unfinished x x_above
    rw [finished_iff, not_or] at unfinished
    have old : id :: rest = (id :: above) ++ other :: below := congrArg (id :: ·) split
    exact sound.reaches old (by simp [unfinished.1, first]) other_met unfinished.2 x
      (List.mem_cons_of_mem _ x_above)
  · intro above other below split first other_met unfinished target adj
    rw [finished_iff, not_or] at unfinished
    rw [finished_iff]
    have old : id :: rest = (id :: above) ++ other :: below := congrArg (id :: ·) split
    rcases sound.targets old (by simp [unfinished.1, first]) other_met unfinished.2 target adj with
      finished | above | back
    · exact Or.inl (Or.inr finished)
    · rcases List.mem_cons.1 above with same | above
      · exact Or.inl (Or.inl same)
      · exact Or.inr (Or.inl above)
    · exact Or.inr (Or.inr back)
  · intro newer other older split target adj
    dsimp only at split
    split at split
    · exact sound.order split target adj
    · next open_ =>
        cases newer with
        | nil =>
            obtain ⟨rfl, rfl⟩ := List.cons.inj split
            have top : id :: rest = [] ++ id :: rest := rfl
            rcases sound.targets top List.not_mem_nil met (by simpa using open_) target adj with
              finished | above | back
            · exact Or.inl finished
            · simp at above
            · exact Or.inr back
        | cons newest newer => exact sound.order (List.cons.inj split).2 target adj

end Walk.Sound

/-- A walk ends with all met that lay on the stack, or at a node with an edge to itself. -/
theorem walk_cases (wf : g.WellFormed) {w : Walk} {stack : List String}
    (sound : w.Sound g stack) :
    (∃ id, g.walk w stack = .error id ∧ g.Adj id id) ∨
      ∃ w', g.walk w stack = .ok w' ∧ w'.Sound g [] ∧ w.met ⊆ w'.met ∧ stack ⊆ w'.met := by
  induction w, stack using walk.induct g with
  | case1 w =>
      rw [walk]
      exact Or.inr ⟨w, rfl, sound, fun _ mem => mem, by simp⟩
  | case2 w id rest new _ targets loop =>
      rw [walk, dif_pos new]
      have adj : g.Adj id id := mem_targets_iff.1 (List.contains_iff_mem.1 loop)
      exact Or.inl ⟨id, if_pos loop, adj⟩
  | case3 w id rest new _ targets loopless met ih =>
      rw [walk, dif_pos new]
      have no_loop : ¬ g.Adj id id := fun adj =>
        loopless (List.contains_iff_mem.2 (mem_targets_iff.2 adj))
      have mem_pushed (target : String) : target ∈ targets.filter (!met.contains ·) ↔
          g.Adj id target ∧ target ∉ id :: w.met := by
        rw [List.mem_filter, mem_targets_iff]
        simp [met]
      have next := sound.meet wf (by simpa using new.2) no_loop mem_pushed
      rw [if_neg loopless]
      refine (ih next).imp_right ?_
      rintro ⟨w', ended, sound', kept, all⟩
      refine ⟨w', ended, sound', fun _ mem => kept (List.mem_cons_of_mem _ mem), ?_⟩
      exact fun _ mem => all (List.mem_append_right _ mem)
  | case4 w id rest old finished ih =>
      rw [walk, dif_neg old]
      have met : id ∈ w.met := by
        have known := sound.known id List.mem_cons_self
        simpa [known] using old
      refine (ih (sound.leave met)).imp_right ?_
      rintro ⟨w', ended, sound', kept, all⟩
      exact ⟨w', ended, sound', kept, List.cons_subset.2 ⟨kept met, all⟩⟩

/-- The walks from all nodes, one after the other. -/
theorem foldlM_walk_cases (wf : g.WellFormed) {ids : List String} (known : ids ⊆ g.ids) {w : Walk}
    (sound : w.Sound g []) :
    let start (w : Walk) (id : String) := g.walk w (if w.met.contains id then [] else [id])
    (∃ id, ids.foldlM start w = .error id ∧ g.Adj id id) ∨
      ∃ w', ids.foldlM start w = .ok w' ∧ w'.Sound g [] ∧ w.met ⊆ w'.met ∧ ids ⊆ w'.met := by
  induction ids generalizing w with
  | nil => exact Or.inr ⟨w, rfl, sound, fun _ mem => mem, by simp⟩
  | cons id rest ih =>
      intro start
      obtain ⟨id_known, rest_known⟩ := List.cons_subset.1 known
      have first : (∃ loop, start w id = .error loop ∧ g.Adj loop loop) ∨
          ∃ w', start w id = .ok w' ∧ w'.Sound g [] ∧ w.met ⊆ w'.met ∧ id ∈ w'.met := by
        by_cases met : id ∈ w.met
        · have stays : start w id = .ok w := by
            show g.walk w (if w.met.contains id then [] else [id]) = _
            rw [if_pos (by simpa using met), walk]
          exact Or.inr ⟨w, stays, sound, fun _ mem => mem, met⟩
        · have starts : start w id = g.walk w [id] := congrArg _ (if_neg (by simpa using met))
          rw [starts]
          have sound' : w.Sound g [id] := by
            refine ⟨by simpa using id_known, sound.loopless, ?_, sound.distinct, ?_, ?_, sound.order⟩
            · exact fun other mem => Or.inl ((sound.kept other mem).resolve_right (by simp))
            · intro above other below split first other_met unfinished
              exact absurd ((sound.kept other other_met).resolve_right (by simp)) unfinished
            · intro above other below split first other_met unfinished
              exact absurd ((sound.kept other other_met).resolve_right (by simp)) unfinished
          refine (walk_cases wf sound').imp_right ?_
          rintro ⟨w', ended, sound', kept, all⟩
          exact ⟨w', ended, sound', kept, all (by simp)⟩
      rw [List.foldlM_cons]
      rcases first with ⟨loop, fails, adj⟩ | ⟨w₁, ended, sound₁, kept₁, met₁⟩
      · rw [fails]
        exact Or.inl ⟨loop, rfl, adj⟩
      · rw [ended]
        refine (ih rest_known sound₁).imp_right ?_
        rintro ⟨w', ended, sound', kept, all⟩
        refine ⟨w', ended, sound', fun _ mem => kept (kept₁ mem), ?_⟩
        exact List.cons_subset.2 ⟨kept met₁, all⟩

/-! ## Going through the nodes -/

theorem firstMissing?_eq_some {before list : List String} {source : String}
    (found : g.firstMissing? before list = some source) :
    ∃ newer id older, list = newer ++ id :: older ∧ g.Adj source id ∧ source ∉ before ∧
      source ∉ newer ∧ source ≠ id := by
  induction list generalizing before with
  | nil => simp [firstMissing?] at found
  | cons id rest ih =>
      unfold firstMissing? at found
      split at found
      · next missing =>
          cases found
          have new := List.find?_some missing
          obtain ⟨e, incoming, rfl⟩ := List.mem_map.1 (List.mem_of_find?_eq_some missing)
          simp only [List.contains_eq_mem, List.mem_cons, Bool.not_eq_true',
            decide_eq_false_iff_not, not_or] at new
          exact ⟨[], id, rest, rfl, adj_of_mem_incoming incoming, new.2, by simp, new.1⟩
      · obtain ⟨newer, target, older, rfl, adj, absent, new, differs⟩ := ih found
        rw [List.mem_cons, not_or] at absent
        exact ⟨id :: newer, target, older, rfl, adj, absent.2, by simp [absent.1, new], differs⟩

theorem mem_of_firstMissing?_eq_none {before newer older : List String} {id source : String}
    (none_missing : g.firstMissing? before (newer ++ id :: older) = none)
    (adj : g.Adj source id) : source = id ∨ source ∈ before ∨ source ∈ newer := by
  induction newer generalizing before with
  | nil =>
      rw [List.nil_append, firstMissing?] at none_missing
      split at none_missing
      · cases none_missing
      · next all_there =>
          obtain ⟨e, edge, rfl, rfl⟩ := adj
          have mem := List.mem_map_of_mem (f := (·.2.source)) (mem_incoming.2 ⟨edge, rfl⟩)
          have there := List.find?_eq_none.1 all_there _ mem
          by_cases same : e.2.source = e.2.target
          · exact Or.inl same
          · exact Or.inr (Or.inl (by simpa [same] using there))
  | cons first newer ih =>
      rw [List.cons_append, firstMissing?] at none_missing
      split at none_missing
      · cases none_missing
      · rcases ih none_missing with same | before | newer
        · exact Or.inl same
        · rcases List.mem_cons.1 before with rfl | before
          · exact Or.inr (Or.inr (by simp))
          · exact Or.inr (Or.inl before)
        · exact Or.inr (Or.inr (List.mem_cons_of_mem _ newer))

theorem Walk.sound_begun : Walk.Sound g {} [] := by
  refine ⟨by simp, by simp, by simp, List.nodup_nil, ?_, ?_, ?_⟩ <;> simp

/-- The walk of the cycle test. -/
theorem cycleNode?_cases (wf : g.WellFormed) :
    (∃ id, g.cycleNode? = some id ∧ g.Adj id id) ∨
      ∃ w : Walk, g.cycleNode? = g.firstMissing? [] w.finished ∧ w.Sound g [] ∧
        g.ids ⊆ w.met := by
  unfold cycleNode?
  rcases foldlM_walk_cases wf (fun _ mem => mem) Walk.sound_begun with
    ⟨id, fails, adj⟩ | ⟨w, ended, sound, -, all⟩
  · dsimp only at fails ⊢
    rw [fails]
    exact Or.inl ⟨id, rfl, adj⟩
  · dsimp only at ended ⊢
    rw [ended]
    exact Or.inr ⟨w, rfl, sound, all⟩

/-- The node that the cycle test names lies on a cycle. -/
theorem reaches_of_cycleNode? (wf : g.WellFormed) {id : String} (named : g.cycleNode? = some id) :
    g.Reaches id id := by
  rcases cycleNode?_cases wf with ⟨loop, same, adj⟩ | ⟨w, same, sound, all⟩
  · rw [named] at same
    cases same
    exact .single adj
  · rw [named] at same
    obtain ⟨newer, target, older, split, adj, -, new, differs⟩ := firstMissing?_eq_some same.symm
    have finished : id ∈ w.finished :=
      (sound.kept id (all (adj.source_mem wf))).resolve_right (by simp)
    rw [split] at finished
    have older_mem : id ∈ older := by simpa [new, differs] using finished
    obtain ⟨between, oldest, rfl⟩ := List.append_of_mem older_mem
    have distinct := sound.distinct
    rw [split] at distinct
    have target_new : target ∉ oldest := by
      have behind := (List.nodup_cons.1 (List.nodup_append.1 distinct).2.1).1
      exact fun mem => behind (by simp [mem])
    have split' : w.finished = (newer ++ target :: between) ++ id :: oldest := by simp [split]
    exact .head adj ((sound.order split' target adj).resolve_left target_new)

/-- If the cycle test names no node, the graph has no cycle. -/
theorem acyclic_of_cycleNode?_eq_none (wf : g.WellFormed) (passes : g.cycleNode? = none) :
    g.Acyclic := by
  rcases cycleNode?_cases wf with ⟨loop, same, adj⟩ | ⟨w, same, sound, all⟩
  · rw [passes] at same
    cases same
  · rw [passes] at same
    refine acyclic_of_rank w.finished.idxOf fun e edge => ?_
    have adj : g.Adj e.2.source e.2.target := ⟨e, edge, rfl, rfl⟩
    have finished : e.2.target ∈ w.finished :=
      (sound.kept _ (all (adj.target_mem wf))).resolve_right (by simp)
    obtain ⟨newer, older, split, first⟩ := List.eq_append_cons_of_mem finished
    rw [split] at same ⊢
    have differs : e.2.source ≠ e.2.target := by
      intro loop
      rw [← loop] at adj
      exact sound.loopless _ (all (adj.source_mem wf)) adj
    have earlier : e.2.source ∈ newer := by
      simpa [differs] using mem_of_firstMissing?_eq_none same.symm adj
    rw [List.idxOf_append_of_mem earlier, List.idxOf_append_of_notMem first,
      List.idxOf_cons_self]
    exact List.idxOf_lt_length_iff.2 earlier

/-- A graph without a cycle passes the cycle test. -/
theorem cycleNode?_eq_none (wf : g.WellFormed) (acyclic : g.Acyclic) : g.cycleNode? = none := by
  cases named : g.cycleNode? with
  | none => rfl
  | some id => exact absurd (reaches_of_cycleNode? wf named) (acyclic id)

end Graph

end Flowline
