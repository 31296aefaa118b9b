import Flowline.Proofs.Store.History
import Flowline.Run.Settle

/-!
# What counters let through

A counter lets an execution through as long as its count is below the limit of the call.  The limit
may change from call to call, and collectors and other counters use the store in between.

* `NodeStore.counts_or_idle`: a call counts for a node, or leaves its count alone.
* `NodeStore.passes_eq_range'`: the executions let through since a reset are numbered from one, and
  the last number is the count.
* `NodeStore.count_le`: the count stays within the limits of the calls.
* `NodeStore.counters_keep`: what holds of a counter after every history of calls.
-/

namespace Flowline

variable {id : String} {call : StoreCall}

/-! ## Limits and counts -/

namespace StoreRecord

/-- The limit of a call that counts for a node. -/
def limit? (id : String) (r : StoreRecord) : Option Nat :=
  match r.call with
  | .increment other limit => if other = id then some limit else none
  | _ => none

/-- The count with which a call lets an execution of a node through. -/
def passed? (id : String) (r : StoreRecord) : Option Nat :=
  match r.call, r.answer with
  | .increment other _, .counted (.passed count) => if other = id then some count else none
  | _, _ => none

end StoreRecord

/-- The limits of the calls that count for a node, in order. -/
def limits (id : String) (records : List StoreRecord) : List Nat :=
  records.filterMap (StoreRecord.limit? id)

/-- The counts with which executions of a node are let through, in order. -/
def passes (id : String) (records : List StoreRecord) : List Nat :=
  records.filterMap (StoreRecord.passed? id)

theorem limits_concat (records : List StoreRecord) (r : StoreRecord) :
    limits id (records ++ [r]) = limits id records ++ (r.limit? id).toList := by
  rw [limits, List.filterMap_append, limits]
  cases asked : r.limit? id with
  | none => simp [asked]
  | some limit => simp [asked]

theorem passes_concat (records : List StoreRecord) (r : StoreRecord) :
    passes id (records ++ [r]) = passes id records ++ (r.passed? id).toList := by
  rw [passes, List.filterMap_append, passes]
  cases let_through : r.passed? id with
  | none => simp [let_through]
  | some count => simp [let_through]

namespace NodeStore

/-! ## One call -/

/-- How often executions of a node have been let through. -/
def count (s : NodeStore) (id : String) : Nat := (s.kept id).count

/-- A call lets an execution through with the next count, or leaves the count at the limit. -/
theorem increment_cases (s : NodeStore) (id : String) (limit : Nat) :
    let next := s.perform (.increment id limit)
    (s.count id < limit ∧ next.1 = .counted (.passed (s.count id + 1)) ∧
        next.2.count id = s.count id + 1) ∨
      (limit ≤ s.count id ∧ next.1 = .counted (.paused (s.count id)) ∧
        next.2.count id = s.count id) := by
  by_cases reached : limit ≤ s.count id
  · have pauses : s.tryIncrement id limit = (.paused (s.count id), s.put id (s.kept id)) :=
      if_pos reached
    refine .inr ⟨reached, ?_, ?_⟩
    · simp only [perform, pauses]
    · simp only [perform, pauses, count, kept_put_self]
  · have passes : s.tryIncrement id limit = (.passed (s.count id + 1),
        s.put id { s.kept id with count := s.count id + 1 }) := if_neg reached
    refine .inl ⟨Nat.lt_of_not_le reached, ?_, ?_⟩
    · simp only [perform, passes]
    · simp only [perform, passes, count, kept_put_self]

/-- Collecting counts for no node. -/
theorem count_collect (s : NodeStore) (id other : String) (values : List Json) (unique : Bool)
    (batchSize : Option Nat) :
    (s.perform (.collect other values unique batchSize)).2.count id = s.count id := by
  by_cases same : id = other
  · subst same
    cases batchSize with
    | none => simp only [perform, collect, count, kept_put_self]
    | some size =>
        simp only [perform, collect]
        generalize (if unique then appendNew _ values else _ ++ values) = held
        by_cases full : size ≤ held.length
        · simp only [if_pos full, count, kept_put_self]
        · simp only [if_neg full, count, kept_put_self]
  · have kept := get?_perform_of_not_concerns s (.collect other values unique batchSize)
      (Ne.symm same)
    rw [count, kept_eq_of_get?_eq kept, count]

/-- A call that does not clear a node counts for it, or leaves its count alone. -/
theorem counts_or_idle (s : NodeStore) (clears : call.clears id = false) :
    (∃ limit, call = .increment id limit) ∨
      ((s.perform call).2.count id = s.count id ∧
        (s.record call).limit? id = none ∧ (s.record call).passed? id = none) := by
  cases call with
  | collect other values unique batchSize =>
      exact .inr ⟨count_collect s id other values unique batchSize, rfl, rfl⟩
  | increment other limit =>
      by_cases same : other = id
      · exact .inl ⟨limit, same ▸ rfl⟩
      · have kept := get?_perform_of_not_concerns s (.increment other limit) same
        refine .inr ⟨congrArg _ (kept_eq_of_get?_eq kept), if_neg same, ?_⟩
        cases counted : (s.tryIncrement other limit).1 with
        | passed count => simp [StoreRecord.passed?, record, perform, counted, same]
        | paused count => simp [StoreRecord.passed?, record, perform, counted]
  | reset other =>
      have kept := get?_perform_of_not_concerns s (.reset other) (beq_eq_false_iff_ne.1 clears)
      exact .inr ⟨congrArg _ (kept_eq_of_get?_eq kept), rfl, rfl⟩
  | resetAll => cases clears

theorem limit?_increment (s : NodeStore) (id : String) (limit : Nat) :
    (s.record (.increment id limit)).limit? id = some limit := if_pos rfl

theorem passed?_increment {s : NodeStore} {limit : Nat} {outcome : CounterOutcome}
    (answers : (s.perform (.increment id limit)).1 = .counted outcome) :
    (s.record (.increment id limit)).passed? id =
      match outcome with
      | .passed count => some count
      | .paused _ => none := by
  simp only [StoreRecord.passed?, record, answers]
  cases outcome with
  | passed count => exact if_pos rfl
  | paused count => rfl

/-! ## Histories -/

/-- The executions let through since the last reset are numbered from one to the count. -/
theorem passes_eq_range' (calls : List StoreCall) :
    passes id (sinceReset id (empty.history calls)) =
      List.range' 1 ((empty.after calls).count id) := by
  refine @sinceReset_induction id (fun _ => True)
    (fun records s => passes id records = List.range' 1 (s.count id))
    (fun s cleared => ?_) (fun records s call _ clears ih => ?_) calls fun _ _ => trivial
  · rw [count, cleared]
    rfl
  · rw [passes_concat, ih]
    rcases counts_or_idle s clears with ⟨limit, rfl⟩ | ⟨stays, -, none_passed⟩
    · rcases increment_cases s id limit with ⟨-, passes, next⟩ | ⟨-, pauses, next⟩
      · rw [passed?_increment passes, next, List.range'_1_concat, Nat.add_comm 1]
        rfl
      · rw [passed?_increment pauses, next]
        exact List.append_nil _
    · rw [none_passed, stays]
      exact List.append_nil _

/-- The count stays within whatever the limits since the last reset stay within. -/
theorem count_le (calls : List StoreCall) {bound : Nat}
    (within : ∀ limit ∈ limits id (sinceReset id (empty.history calls)), limit ≤ bound) :
    (empty.after calls).count id ≤ bound := by
  refine @sinceReset_induction id (fun _ => True)
    (fun records s => (∀ limit ∈ limits id records, limit ≤ bound) → s.count id ≤ bound)
    (fun s cleared _ => ?_) (fun records s call _ clears ih within => ?_) calls
    (fun _ _ => trivial) within
  · rw [count, cleared]
    exact Nat.zero_le bound
  · rw [limits_concat] at within
    have before := ih fun limit mem => within limit (List.mem_append_left _ mem)
    rcases counts_or_idle s clears with ⟨limit, rfl⟩ | ⟨stays, -, -⟩
    · rw [limit?_increment] at within
      have asked : limit ≤ bound := within limit (List.mem_append_right _ (by simp))
      rcases increment_cases s id limit with ⟨below, -, next⟩ | ⟨-, -, next⟩
      · rw [next]
        exact Nat.le_trans below asked
      · rw [next]
        exact before
    · rw [stays]
      exact before

/-! ## Counters -/

/-- A counter makes one call on the store. It fires every edge behind its node if the call lets the
execution through, and none if not. -/
theorem outcome_of_count (c : CounterConfig) (ctx : NodeContext) (s : NodeStore) :
    let next := s.perform (.increment ctx.nodeId c.limit)
    (c.outcome ctx s).2 = next.2 ∧ ∃ output, (c.outcome ctx s).1 = .ok output ∧
      output.failure = none ∧
      (∀ count, next.1 = .counted (.passed count) → output.propagation = .all) ∧
      ∀ count, next.1 = .counted (.paused count) → output.propagation = .suppress := by
  simp only [CounterConfig.outcome, perform]
  generalize s.tryIncrement ctx.nodeId c.limit = counted
  obtain ⟨outcome, left⟩ := counted
  cases outcome with
  | passed count =>
      refine ⟨rfl, _, rfl, rfl, fun _ _ => rfl, fun _ same => ?_⟩
      cases same
  | paused count =>
      refine ⟨rfl, _, rfl, rfl, fun _ same => ?_, fun _ _ => rfl⟩
      cases same

/-- The edges that an output without a failure fires. -/
theorem takenEdges_of_output (g : Graph) (n : Node) {output : NodeOutput}
    (succeeds : output.failure = none) :
    (output.propagation = .all →
      g.takenEdges n (.ofOutcome (.ok output)) = (g.outgoing n.id).map (·.1)) ∧
      (output.propagation = .suppress → g.takenEdges n (.ofOutcome (.ok output)) = []) := by
  have continues : (Execution.ofOutcome (.ok output)).continues n = true := by
    simp [Execution.continues, Execution.failed, Execution.ofOutcome, succeeds]
  have goes_on : (Execution.ofOutcome (.ok output)).propagation = output.propagation := rfl
  rw [Graph.takenEdges, if_pos continues, goes_on]
  exact ⟨fun all => by rw [all], fun suppress => by rw [suppress]⟩

/-- What holds of a node after some calls on a store in which nothing was kept. -/
structure CountersKeep (calls : List StoreCall) (id : String) : Prop where
  /-- The count is the number of executions let through since the last reset. -/
  counted : (empty.after calls).count id =
    (passes id (sinceReset id (empty.history calls))).length
  /-- They were numbered from one, without a gap and without a repeat. -/
  numbered : passes id (sinceReset id (empty.history calls)) =
    List.range' 1 (passes id (sinceReset id (empty.history calls))).length
  /-- A call lets an execution through exactly if the count is below its limit, and then counts up
  to the limit at most. -/
  next : ∀ limit,
    let count := (empty.after calls).count id
    let next := (empty.after calls).perform (.increment id limit)
    (count < limit → count + 1 ≤ limit ∧ next.1 = .counted (.passed (count + 1)) ∧
        next.2.count id = count + 1) ∧
      (limit ≤ count → next.1 = .counted (.paused count) ∧ next.2.count id = count)
  /-- The count is within the greatest limit since the last reset, and so within a word if the
  limits are. -/
  within : ∀ bound, (∀ limit ∈ limits id (sinceReset id (empty.history calls)), limit ≤ bound) →
    (empty.after calls).count id ≤ bound
  word : (∀ limit ∈ limits id (sinceReset id (empty.history calls)), limit ≤ maxWord64) →
    (empty.after calls).count id ≤ maxWord64
  /-- Nothing is counted after a reset. -/
  reset : ∀ call : StoreCall, call.clears id = true →
    ((empty.after calls).perform call).2.count id = 0
  /-- Calls on other nodes and collecting leave the count alone. -/
  others : ∀ call : StoreCall, ¬ call.Concerns id →
    ((empty.after calls).perform call).2.count id = (empty.after calls).count id
  collects : ∀ values unique batchSize,
    ((empty.after calls).perform (.collect id values unique batchSize)).2.count id =
      (empty.after calls).count id
  /-- A counter node makes one call on the store and never fails. It fires all edges behind it if
  the execution is let through, and none if not. -/
  node : ∀ (c : CounterConfig) (ctx : NodeContext), ctx.nodeId = id →
    let count := (empty.after calls).count id
    let next := (empty.after calls).perform (.increment id c.limit)
    (c.outcome ctx (empty.after calls)).2 = next.2 ∧
      ∃ output, (c.outcome ctx (empty.after calls)).1 = .ok output ∧
        output.propagation = (if count < c.limit then .all else .suppress) ∧
        ∀ (g : Graph) (n : Node), g.takenEdges n (.ofOutcome (.ok output)) =
          if count < c.limit then (g.outgoing n.id).map (·.1) else []

/-- **Counters count exactly.**  Whatever calls on whichever nodes come in between and however the
limit changes, the count of a node is the number of its executions that were let through since its
last reset. -/
theorem counters_keep (calls : List StoreCall) (id : String) : CountersKeep calls id where
  counted := by rw [passes_eq_range', List.length_range']
  numbered := by rw [passes_eq_range', List.length_range']
  next limit := by
    dsimp only
    rcases increment_cases (empty.after calls) id limit with
      ⟨below, passes, next⟩ | ⟨reached, pauses, next⟩
    · exact ⟨fun _ => ⟨below, passes, next⟩, fun reached => absurd below (Nat.not_lt.2 reached)⟩
    · exact ⟨fun below => absurd below (Nat.not_lt.2 reached), fun _ => ⟨pauses, next⟩⟩
  within _ := count_le calls
  word := count_le calls
  reset call clears := by
    rw [count, kept_perform_of_clears clears]
  others call other := by
    rw [count, kept_eq_of_get?_eq (get?_perform_of_not_concerns _ call other), count]
  collects := count_collect _ id id
  node c ctx is_node := by
    subst is_node
    obtain ⟨left, output, done, succeeds, all, suppress⟩ :=
      outcome_of_count c ctx (empty.after calls)
    refine ⟨left, output, done, ?_⟩
    rcases increment_cases (empty.after calls) ctx.nodeId c.limit with
      ⟨below, passes, -⟩ | ⟨reached, pauses, -⟩
    · simp only [if_pos below]
      exact ⟨all _ passes, fun g n => (takenEdges_of_output g n succeeds).1 (all _ passes)⟩
    · simp only [if_neg (Nat.not_lt.2 reached)]
      exact ⟨suppress _ pauses,
        fun g n => (takenEdges_of_output g n succeeds).2 (suppress _ pauses)⟩

/-- A counter whose limit is lowered and raised again, while a collector of the same id and another
counter are used and it is reset once. -/
def edited : List StoreCall :=
  [.increment "n" 2, .increment "m" 1, .increment "n" 2, .increment "n" 2, .reset "n",
    .increment "n" 3, .collect "n" [.null] false none, .increment "n" 1, .increment "n" 5,
    .reset "m", .increment "n" maxWord64]

/-- Two executions before the reset do not count, and one of the four behind it is held back. -/
theorem counters_keep_edited :
    let since := sinceReset "n" (empty.history edited)
    (∀ limit ∈ limits "n" since, limit ≤ maxWord64) ∧ limits "n" since = [3, 1, 5, maxWord64] ∧
      passes "n" since = [1, 2, 3] ∧ (empty.after edited).count "n" = 3 ∧
      (empty.after edited).count "n" ≤ maxWord64 ∧
      (empty.after edited).count "m" = 0 ∧
      ((empty.after edited).perform (.increment "n" 3)).1 = .counted (.paused 3) ∧
      ((empty.after edited).perform (.increment "n" 4)).1 = .counted (.passed 4) := by
  intro since
  have asked : limits "n" since = [3, 1, 5, maxWord64] := rfl
  have within : ∀ limit ∈ limits "n" since, limit ≤ maxWord64 := by
    rw [asked]
    decide
  have keep := counters_keep edited "n"
  have passed : passes "n" since = [1, 2, 3] := rfl
  have count : (empty.after edited).count "n" = 3 := by
    rw [keep.counted, passed]
    rfl
  have other : (empty.after edited).count "m" = 0 := (counters_keep edited "m").counted
  refine ⟨within, asked, passed, count, keep.word within, other, ?_, ?_⟩
  · rw [((keep.next 3).2 (by rw [count])).1, count]
  · rw [((keep.next 4).1 (by rw [count]; decide)).2.1, count]

end NodeStore

end Flowline
