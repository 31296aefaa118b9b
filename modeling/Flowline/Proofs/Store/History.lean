import Flowline.Proofs.Node.Kept
import Mathlib.Data.List.DropRight

/-!
# Histories of calls on the store

Collectors and counters share one store, which runs and resets call in any order.  A history has
every call with its answer.  What is kept for a node depends on the calls about it since its last
reset.

* `NodeStore.get?_perform_of_not_concerns`: a call leaves alone what it is not about.
* `NodeStore.history_concat`, `sinceReset_concat`: how a history goes on.
* `sinceReset_induction`: to prove something of the calls since a reset, prove it of a node for
  which nothing is kept, and that a call keeps it.
-/

namespace Flowline

/-- A call on the store. -/
inductive StoreCall where
  | collect (id : String) (values : List Json) (unique : Bool) (batchSize : Option Nat)
  | increment (id : String) (limit : Nat)
  | reset (id : String)
  | resetAll

/-- What a call is answered. -/
inductive StoreAnswer where
  | collected (outcome : CollectOutcome)
  | counted (outcome : CounterOutcome)
  /-- Whether something was kept. -/
  | reset (found : Bool)
  | resetAll

/-- A call with its answer. -/
structure StoreRecord where
  call : StoreCall
  answer : StoreAnswer

namespace StoreCall

/-- The call is about a node. -/
def Concerns (id : String) : StoreCall → Prop
  | collect other _ _ _ | increment other _ | reset other => other = id
  | resetAll => True

/-- Nothing is kept for the node after the call. -/
def clears (id : String) : StoreCall → Bool
  | reset other => other == id
  | resetAll => true
  | collect _ _ _ _ | increment _ _ => false

end StoreCall

namespace NodeStore

/-- What a call is answered, and what is kept after it. -/
def perform (s : NodeStore) : StoreCall → StoreAnswer × NodeStore
  | .collect id values unique batchSize =>
    let (outcome, after) := s.collect id values unique batchSize
    (.collected outcome, after)
  | .increment id limit =>
    let (outcome, after) := s.tryIncrement id limit
    (.counted outcome, after)
  | .reset id => (.reset (s.has id), s.reset id)
  | .resetAll => (.resetAll, empty)

/-- A call with what it is answered. -/
def record (s : NodeStore) (call : StoreCall) : StoreRecord := ⟨call, (s.perform call).1⟩

/-- What is kept after some calls. -/
def after (s : NodeStore) (calls : List StoreCall) : NodeStore :=
  calls.foldl (fun s call => (s.perform call).2) s

/-- The calls with their answers. -/
def history (s : NodeStore) : List StoreCall → List StoreRecord
  | [] => []
  | call :: rest => s.record call :: (s.perform call).2.history rest

variable {s : NodeStore} {id : String} {call : StoreCall}

@[simp] theorem call_record (s : NodeStore) (call : StoreCall) : (s.record call).call = call := rfl

theorem after_concat (s : NodeStore) (calls : List StoreCall) (call : StoreCall) :
    s.after (calls ++ [call]) = ((s.after calls).perform call).2 := List.foldl_append

theorem history_concat (s : NodeStore) (calls : List StoreCall) (call : StoreCall) :
    s.history (calls ++ [call]) =
      s.history calls ++ [(s.after calls).record call] := by
  induction calls generalizing s with
  | nil => rfl
  | cons first rest ih =>
      rw [List.cons_append, history, ih, history]
      rfl

/-! ## What is kept for a node -/

theorem kept_empty (id : String) : empty.kept id = {} := rfl

theorem get?_reset_self (s : NodeStore) (id : String) : (s.reset id).get? id = none :=
  (Entries.get?_remove s.entries id id).trans (if_pos rfl)

theorem get?_reset_of_ne (s : NodeStore) {other : String} (ne : id ≠ other) :
    (s.reset other).get? id = s.get? id :=
  (Entries.get?_remove s.entries other id).trans (if_neg ne)

/-- What is kept for a node is left alone by the calls that are not about it. -/
theorem get?_perform_of_not_concerns (s : NodeStore) (call : StoreCall)
    (other : ¬ call.Concerns id) : (s.perform call).2.get? id = s.get? id := by
  cases call with
  | collect other_id values unique batchSize =>
      exact (local_collect other_id values unique batchSize).keeps s (Ne.symm other)
  | increment other_id limit => exact (local_tryIncrement other_id limit).keeps s (Ne.symm other)
  | reset other_id => exact get?_reset_of_ne s (Ne.symm other)
  | resetAll => exact absurd trivial other

/-- Nothing is kept for a node after a call that clears it. -/
theorem kept_perform_of_clears (clears : call.clears id = true) :
    (s.perform call).2.kept id = {} := by
  cases call with
  | collect | increment => cases clears
  | reset other =>
      obtain rfl := beq_iff_eq.1 clears
      rw [perform, kept, get?_reset_self]
      rfl
  | resetAll => rfl

theorem kept_put_self (s : NodeStore) (id : String) (k : KeptState) : (s.put id k).kept id = k := by
  rw [kept, get?_put_self]
  rfl

/-- Counting changes no collected values. -/
theorem collected_increment (s : NodeStore) (id other : String) (limit : Nat) :
    ((s.perform (.increment other limit)).2.kept id).collected = (s.kept id).collected := by
  by_cases same : id = other
  · subst same
    simp only [perform, tryIncrement]
    split <;> rw [kept_put_self]
  · have kept := get?_perform_of_not_concerns s (.increment other limit) (Ne.symm same)
    rw [kept_eq_of_get?_eq kept]

end NodeStore

/-! ## Since the last reset -/

/-- The calls since a node was cleared last, or all if it never was. -/
def sinceReset (id : String) (history : List StoreRecord) : List StoreRecord :=
  history.rtakeWhile fun r => !r.call.clears id

theorem sinceReset_concat (id : String) (history : List StoreRecord) (r : StoreRecord) :
    sinceReset id (history ++ [r]) =
      if r.call.clears id then [] else sinceReset id history ++ [r] := by
  rw [sinceReset, List.rtakeWhile_concat]
  cases r.call.clears id with
  | false => rfl
  | true => rfl

/-- Induction on the calls since a node was cleared last.  The calls before them are forgotten:
they end with nothing kept for the node. -/
theorem sinceReset_induction {id : String} {allowed : StoreCall → Prop}
    {motive : List StoreRecord → NodeStore → Prop}
    (cleared : ∀ s : NodeStore, s.kept id = {} → motive [] s)
    (step : ∀ records s (call : StoreCall), allowed call → call.clears id = false →
      motive records s → motive (records ++ [s.record call]) (s.perform call).2)
    (calls : List StoreCall)
    (all : ∀ r ∈ sinceReset id (NodeStore.empty.history calls), allowed r.call) :
    motive (sinceReset id (NodeStore.empty.history calls)) (NodeStore.empty.after calls) := by
  induction calls using List.reverseRecOn with
  | nil => exact cleared NodeStore.empty (NodeStore.kept_empty id)
  | append_singleton calls call ih =>
      rw [NodeStore.history_concat, sinceReset_concat, NodeStore.call_record] at all ⊢
      rw [NodeStore.after_concat]
      cases clears : call.clears id with
      | true =>
          rw [if_pos rfl]
          exact cleared _ (NodeStore.kept_perform_of_clears clears)
      | false =>
          rw [clears, if_neg Bool.false_ne_true, List.forall_mem_append,
            List.forall_mem_singleton] at all
          rw [if_neg Bool.false_ne_true]
          exact step _ _ call all.2 clears (ih all.1)

end Flowline
