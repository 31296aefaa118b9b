import Flowline.Proofs.Json.Equality
import Flowline.Proofs.Store.History

/-!
# What collectors hand on

A collector that makes batches hands on each value it is given once, in order: what it has handed
on and what it holds are what it was given since its last reset.  A collector that drops repeats
hands on the values so far without the repeats.  Nothing that happens to other nodes matters.

* `NodeStore.emitted_perform`: one call neither loses, repeats nor moves a value.
* `NodeStore.collected_perform_of_dropsRepeats`: one call adds the values that were not held.
* `NodeStore.collectors_keep`: both for every history of calls.
-/

namespace Flowline

variable {id : String} {call : StoreCall}

/-! ## Given and handed on -/

namespace StoreRecord

/-- The values given to a node. -/
def given (id : String) (r : StoreRecord) : List Json :=
  match r.call with
  | .collect other values _ _ => if other = id then values else []
  | _ => []

/-- The batch that a node hands on. -/
def batch? (id : String) (r : StoreRecord) : Option (List Json) :=
  match r.call, r.answer with
  | .collect other _ _ _, .collected (.emit items) => if other = id then some items else none
  | _, _ => none

end StoreRecord

/-- All values given to a node, in order. -/
def given (id : String) (records : List StoreRecord) : List Json :=
  records.flatMap (StoreRecord.given id)

/-- The batches that a node hands on, in order. -/
def emitted (id : String) (records : List StoreRecord) : List (List Json) :=
  records.filterMap (StoreRecord.batch? id)

namespace StoreCall

/-- If the call collects for the node, then in batches of at least one value, repeats included. -/
def Batches (id : String) : StoreCall → Prop
  | collect other _ unique batchSize =>
    other = id → unique = false ∧ ∃ size, batchSize = some size ∧ 1 ≤ size
  | _ => True

/-- If the call collects for the node, then without repeats and without batches. -/
def DropsRepeats (id : String) : StoreCall → Prop
  | collect other _ unique batchSize => other = id → unique = true ∧ batchSize = none
  | _ => True

end StoreCall

namespace NodeStore

/-! ## One call -/

/-- A batch is handed on as soon as it is full, and nothing is held then. -/
theorem collect_batch (s : NodeStore) (id : String) (values : List Json) (size : Nat) :
    let held := (s.kept id).collected ++ values
    (size ≤ held.length ∧ s.collect id values false (some size) =
        (.emit held, s.put id { s.kept id with collected := [] })) ∨
      (held.length < size ∧ s.collect id values false (some size) =
        (.pending held.length, s.put id { s.kept id with collected := held })) := by
  intro held
  by_cases full : size ≤ held.length
  · exact .inl ⟨full, if_pos full⟩
  · exact .inr ⟨Nat.lt_of_not_le full, if_neg full⟩

theorem given_record (s : NodeStore) (id : String) (values : List Json) (unique : Bool)
    (batchSize : Option Nat) :
    (s.record (.collect id values unique batchSize)).given id = values := if_pos rfl

/-- A call that does not clear a node collects for it, or does nothing to what it holds. -/
theorem collects_or_idle (s : NodeStore) (clears : call.clears id = false) :
    (∃ values unique batchSize, call = .collect id values unique batchSize) ∨
      (((s.perform call).2.kept id).collected = (s.kept id).collected ∧
        (s.record call).given id = [] ∧
        (s.record call).batch? id = none) := by
  cases call with
  | collect other values unique batchSize =>
      by_cases same : other = id
      · exact .inl ⟨values, unique, batchSize, same ▸ rfl⟩
      · have kept := get?_perform_of_not_concerns s (.collect other values unique batchSize) same
        refine .inr ⟨congrArg _ (kept_eq_of_get?_eq kept), if_neg same, ?_⟩
        cases handed : (s.collect other values unique batchSize).1 with
        | emit items => simp [StoreRecord.batch?, record, perform, handed, same]
        | pending held => simp [StoreRecord.batch?, record, perform, handed]
  | increment other limit => exact .inr ⟨collected_increment s id other limit, rfl, rfl⟩
  | reset other =>
      have ne : other ≠ id := beq_eq_false_iff_ne.1 clears
      have kept := get?_perform_of_not_concerns s (.reset other) ne
      exact .inr ⟨congrArg _ (kept_eq_of_get?_eq kept), rfl, rfl⟩
  | resetAll => cases clears

/-- What a call hands on and what is held after it are what was held and what is given. -/
theorem emitted_perform (s : NodeStore) (batches : call.Batches id)
    (clears : call.clears id = false) :
    ((s.record call).batch? id).toList.flatten ++ ((s.perform call).2.kept id).collected =
      (s.kept id).collected ++ (s.record call).given id := by
  rcases collects_or_idle s clears with ⟨values, unique, batchSize, rfl⟩ | ⟨stays, none_given, none⟩
  · obtain ⟨rfl, size, rfl, -⟩ := batches rfl
    rw [given_record]
    rcases collect_batch s id values size with ⟨-, collects⟩ | ⟨-, collects⟩
    · simp [StoreRecord.batch?, record, perform, collects, kept_put_self]
    · simp [StoreRecord.batch?, record, perform, collects, kept_put_self]
  · rw [stays, none_given, none, List.append_nil]
    rfl

/-- A call adds the values that neither were held nor repeat another one. -/
theorem collected_perform_of_dropsRepeats (s : NodeStore) (drops : call.DropsRepeats id)
    (clears : call.clears id = false) :
    ((s.perform call).2.kept id).collected =
      appendNew (s.kept id).collected ((s.record call).given id) := by
  rcases collects_or_idle s clears with ⟨values, unique, batchSize, rfl⟩ | ⟨stays, none_given, -⟩
  · obtain ⟨rfl, rfl⟩ := drops rfl
    rw [given_record]
    simp [perform, collect, kept_put_self]
  · rw [stays, none_given, appendNew]

theorem appendNew_withoutRepeats (held values : List Json) :
    appendNew (withoutRepeats held) values = withoutRepeats (held ++ values) := by
  induction values generalizing held with
  | nil => rw [appendNew, List.append_nil]
  | cons v rest ih =>
      rw [appendNew, any_withoutRepeats, ← withoutRepeats_concat, ih, List.append_assoc]
      rfl

/-! ## Histories -/

theorem given_concat (records : List StoreRecord) (r : StoreRecord) :
    given id (records ++ [r]) = given id records ++ r.given id := by
  rw [given, List.flatMap_append, List.flatMap_singleton, given]

theorem flatten_emitted_concat (records : List StoreRecord) (r : StoreRecord) :
    (emitted id (records ++ [r])).flatten =
      (emitted id records).flatten ++ (r.batch? id).toList.flatten := by
  rw [emitted, List.filterMap_append, List.flatten_append, emitted]
  cases handed : r.batch? id with
  | none => simp [handed]
  | some items => simp [handed]

/-- What was handed on and what is held are what was given since the last reset. -/
theorem emitted_append_collected (calls : List StoreCall)
    (batches : ∀ r ∈ sinceReset id (empty.history calls), r.call.Batches id) :
    (emitted id (sinceReset id (empty.history calls))).flatten ++
        ((empty.after calls).kept id).collected =
      given id (sinceReset id (empty.history calls)) := by
  refine sinceReset_induction (motive := fun records s =>
    (emitted id records).flatten ++ (s.kept id).collected = given id records)
    (fun s cleared => ?_) (fun records s call batches clears ih => ?_) calls batches
  · rw [cleared]
    rfl
  · rw [flatten_emitted_concat, List.append_assoc, emitted_perform s batches clears,
      ← List.append_assoc, ih, given_concat]

/-- What is held are the values given since the last reset, without the repeats. -/
theorem collected_eq_withoutRepeats (calls : List StoreCall)
    (drops : ∀ r ∈ sinceReset id (empty.history calls), r.call.DropsRepeats id) :
    ((empty.after calls).kept id).collected =
      withoutRepeats (given id (sinceReset id (empty.history calls))) := by
  refine sinceReset_induction (motive := fun records s =>
    (s.kept id).collected = withoutRepeats (given id records))
    (fun s cleared => ?_) (fun records s call drops clears ih => ?_) calls drops
  · rw [cleared]
    rfl
  · rw [collected_perform_of_dropsRepeats s drops clears, ih, appendNew_withoutRepeats,
      given_concat]

/-! ## Collectors -/

theorem effectiveBatch_ne_zero (c : CollectorConfig) : c.effectiveBatch ≠ some 0 := by
  rw [CollectorConfig.effectiveBatch]
  split
  · have positive : 1 ≤ max c.batchSize 1 := le_max_right _ _
    intro zero
    rw [Option.some.inj zero] at positive
    cases positive
  · nofun

/-- A collector whose selection succeeds makes one call on the store and tells what it is
answered. -/
theorem outcome_of_select {c : CollectorConfig} {ctx : NodeContext} {selected : Option Json}
    (selects : ctx.select c.path = .ok selected) (s : NodeStore) :
    let next := s.perform
      (.collect ctx.nodeId (CollectorConfig.values selected) c.makeUnique c.effectiveBatch)
    (c.outcome ctx s).2 = next.2 ∧ ∃ output, (c.outcome ctx s).1 = .ok output ∧
      (∀ items, next.1 = .collected (.emit items) →
        output.propagation = .all ∧ output.data.member? "items" = some (.arr items)) ∧
      (∀ held, next.1 = .collected (.pending held) → output.propagation = .suppress) := by
  simp only [CollectorConfig.outcome, selects, perform]
  generalize s.collect ctx.nodeId (CollectorConfig.values selected) c.makeUnique
    c.effectiveBatch = handed
  obtain ⟨outcome, left⟩ := handed
  cases outcome with
  | emit items =>
      refine ⟨rfl, _, rfl, fun all same => ?_, fun held same => ?_⟩
      · cases same
        exact ⟨rfl, rfl⟩
      · cases same
  | pending held =>
      refine ⟨rfl, _, rfl, fun items same => ?_, fun _ _ => rfl⟩
      cases same

/-- What holds of a node after some calls on a store in which nothing was kept. -/
structure CollectorsKeep (calls : List StoreCall) (id : String) : Prop where
  /-- A node that is given values in batches hands on and holds them all, once and in order. -/
  batches : (∀ r ∈ sinceReset id (empty.history calls), r.call.Batches id) →
    (emitted id (sinceReset id (empty.history calls))).flatten ++
      ((empty.after calls).kept id).collected = given id (sinceReset id (empty.history calls))
  /-- After a call fewer values than its batch size are held, and none if it hands on a batch, which
  has at least that many. -/
  next : ∀ values size, 1 ≤ size →
    let next := (empty.after calls).perform (.collect id values false (some size))
    (next.2.kept id).collected.length < size ∧
      ∀ items, next.1 = .collected (.emit items) →
        size ≤ items.length ∧ (next.2.kept id).collected = []
  /-- A node that drops repeats hands on the values so far, in the order of their first
  occurrences. -/
  unique : (∀ r ∈ sinceReset id (empty.history calls), r.call.DropsRepeats id) → ∀ values,
    ((empty.after calls).perform (.collect id values true none)).1 = .collected
      (.emit (withoutRepeats (given id (sinceReset id (empty.history calls)) ++ values)))
  /-- Calls on other nodes leave alone what is kept for a node. -/
  others : ∀ call : StoreCall, ¬ call.Concerns id →
    ((empty.after calls).perform call).2.get? id = (empty.after calls).get? id
  /-- A collector node whose selection succeeds makes one such call, never with batches of no
  values.  It fires all its edges with what the call hands on, and none while values are held
  back. -/
  node : ∀ (c : CollectorConfig) (ctx : NodeContext) (selected : Option Json), ctx.nodeId = id →
    ctx.select c.path = .ok selected → c.effectiveBatch ≠ some 0 ∧
      let next := (empty.after calls).perform
        (.collect id (CollectorConfig.values selected) c.makeUnique c.effectiveBatch)
      (c.outcome ctx (empty.after calls)).2 = next.2 ∧
        ∃ output, (c.outcome ctx (empty.after calls)).1 = .ok output ∧
          (∀ items, next.1 = .collected (.emit items) →
            output.propagation = .all ∧ output.data.member? "items" = some (.arr items)) ∧
          (∀ held, next.1 = .collected (.pending held) → output.propagation = .suppress)

/-- Collectors lose, repeat and move no value, whatever calls on whichever nodes come in between. -/
theorem collectors_keep (calls : List StoreCall) (id : String) : CollectorsKeep calls id where
  batches := emitted_append_collected calls
  next values size positive := by
    rcases collect_batch (empty.after calls) id values size with
      ⟨full, collects⟩ | ⟨short, collects⟩
    · simp only [perform, collects, kept_put_self]
      refine ⟨positive, fun items same => ?_⟩
      cases same
      exact ⟨full, trivial⟩
    · simp only [perform, collects, kept_put_self]
      refine ⟨short, fun items same => ?_⟩
      cases same
  unique drops values := by
    rw [← appendNew_withoutRepeats, ← collected_eq_withoutRepeats calls drops]
    rfl
  others call other := get?_perform_of_not_concerns _ call other
  node c ctx selected is_node selects := by
    subst is_node
    exact ⟨effectiveBatch_ne_zero c, outcome_of_select selects _⟩

/-- Two collectors, of which one makes batches, the other one is reset, and a count in between. -/
def interleaved : List StoreCall :=
  [.collect "a" [.int 1, .int 2] false (some 3), .increment "a" 5,
    .collect "b" [.str "x", .str "x"] true none, .collect "a" [.int 3, .int 4] false (some 2),
    .reset "b", .collect "a" [.int 5] false (some 2), .collect "b" [.str "y", .str "y"] true none]

/-- The batch is handed on before the last value comes, and of the repeats none. -/
theorem collectors_keep_interleaved :
    let history := empty.history interleaved
    (∀ r ∈ sinceReset "a" history, r.call.Batches "a") ∧
      emitted "a" (sinceReset "a" history) = [[.int 1, .int 2, .int 3, .int 4]] ∧
      ((empty.after interleaved).kept "a").collected = [.int 5] ∧
      (∀ r ∈ sinceReset "b" history, r.call.DropsRepeats "b") ∧
      ((empty.after interleaved).perform (.collect "b" [.str "z", .str "y"] true none)).1 =
        .collected (.emit [.str "y", .str "z"]) := by
  intro history
  have batches : ∀ r ∈ sinceReset "a" history, r.call.Batches "a" := by
    have since : (sinceReset "a" history).map (·.call) = interleaved := rfl
    have all : ∀ call ∈ interleaved, call.Batches "a" := by
      simp [interleaved, StoreCall.Batches]
    intro r mem
    exact all r.call (since ▸ List.mem_map_of_mem mem)
  have drops : ∀ r ∈ sinceReset "b" history, r.call.DropsRepeats "b" := by
    have since : (sinceReset "b" history).map (·.call) = interleaved.drop 5 := rfl
    have all : ∀ call ∈ interleaved.drop 5, call.DropsRepeats "b" := by
      simp [interleaved, StoreCall.DropsRepeats]
    intro r mem
    exact all r.call (since ▸ List.mem_map_of_mem mem)
  have handed : emitted "a" (sinceReset "a" history) =
      [[.int 1, .int 2, .int 3, .int 4]] := rfl
  have given_a : given "a" (sinceReset "a" history) =
      [.int 1, .int 2, .int 3, .int 4, .int 5] := rfl
  have given_b : given "b" (sinceReset "b" history) = [.str "y", .str "y"] := rfl
  have kept := (collectors_keep interleaved "a").batches batches
  rw [handed, given_a] at kept
  have unique := (collectors_keep interleaved "b").unique drops [.str "z", .str "y"]
  rw [given_b] at unique
  have repeats : withoutRepeats ([.str "y", .str "y"] ++ [.str "z", .str "y"]) =
      [.str "y", .str "z"] := by simp [withoutRepeats, Json.same]
  rw [repeats] at unique
  exact ⟨batches, handed, List.append_cancel_left kept,
    drops, unique⟩

end NodeStore

end Flowline
