import Flowline.Node.Plan
import Flowline.Proofs.Json.Entries

/-!
# What nodes read and write of what is kept

Collectors and counters share one store.  Each node reads and writes only what is kept for itself:
its plan and what it leaves for itself depend on the store only there, and what is kept for other
nodes stays (`Node.local_plan`).
-/

namespace Flowline

/-! ## The store -/

namespace NodeStore

variable {s s' : NodeStore} {id other : String}

@[simp] theorem get?_put_self (s : NodeStore) (id : String) (k : KeptState) :
    (s.put id k).get? id = some k :=
  (Entries.get?_put s.entries id id k).trans (if_pos rfl)

theorem get?_put_of_ne (s : NodeStore) (ne : other ≠ id) (k : KeptState) :
    (s.put id k).get? other = s.get? other :=
  (Entries.get?_put s.entries id other k).trans (if_neg ne)

theorem kept_eq_of_get?_eq (same : s.get? id = s'.get? id) : s.kept id = s'.kept id := by
  rw [kept, kept, same]

/-- What a node makes of the store is local: what it hands on and what it leaves for itself depend
only on what is kept for it, and what is kept for other nodes stays. -/
structure Local {α : Type} (id : String) (act : NodeStore → α × NodeStore) : Prop where
  reads : ∀ {s s' : NodeStore}, s.get? id = s'.get? id →
    (act s).1 = (act s').1 ∧ (act s).2.get? id = (act s').2.get? id
  keeps : ∀ (s : NodeStore) {other : String}, other ≠ id → (act s).2.get? other = s.get? other

namespace Local

variable {α β : Type}

theorem untouched (id : String) (a : α) : Local id fun s => (a, s) :=
  ⟨fun same => ⟨rfl, same⟩, fun _ _ _ => rfl⟩

/-- What is handed on may be changed. -/
theorem map {act : NodeStore → α × NodeStore} (is_local : Local id act) (f : α → β) :
    Local id fun s => (f (act s).1, (act s).2) where
  reads same := (is_local.reads same).imp_left (congrArg f)
  keeps := is_local.keeps

end Local

theorem local_collect (id : String) (values : List Json) (unique : Bool) (batchSize : Option Nat) :
    Local id fun s => s.collect id values unique batchSize where
  reads same := by
    unfold collect
    rw [kept_eq_of_get?_eq same]
    cases batchSize with
    | none => exact ⟨rfl, by simp⟩
    | some size =>
        dsimp only
        generalize (if unique then appendNew _ values else _ ++ values) = held
        by_cases enough : size ≤ held.length
        · simp only [if_pos enough, get?_put_self, and_self]
        · simp only [if_neg enough, get?_put_self, and_self]
  keeps s other ne := by
    unfold collect
    cases batchSize with
    | none => exact get?_put_of_ne s ne _
    | some size =>
        dsimp only
        generalize (if unique then appendNew _ values else _ ++ values) = held
        split
        · exact get?_put_of_ne s ne _
        · exact get?_put_of_ne s ne _

theorem local_tryIncrement (id : String) (limit : Nat) :
    Local id fun s => s.tryIncrement id limit where
  reads same := by
    unfold tryIncrement
    rw [kept_eq_of_get?_eq same]
    dsimp only
    split
    · exact ⟨rfl, by simp⟩
    · exact ⟨rfl, by simp⟩
  keeps s other ne := by
    unfold tryIncrement
    dsimp only
    split
    · exact get?_put_of_ne s ne _
    · exact get?_put_of_ne s ne _

end NodeStore

/-! ## Nodes -/

theorem CollectorConfig.local_outcome (c : CollectorConfig) (ctx : NodeContext) :
    NodeStore.Local ctx.nodeId (c.outcome ctx) := by
  cases selected : ctx.select c.path with
  | error e =>
      have fails : c.outcome ctx = fun s => (.error e, s) := by
        funext s
        rw [outcome, selected]
      rw [fails]
      exact .untouched ctx.nodeId _
  | ok value =>
      have collects := NodeStore.local_collect ctx.nodeId (values value) c.makeUnique
        c.effectiveBatch
      refine ⟨fun {s s'} same => ?_, fun s other ne => ?_⟩
      · have both := collects.reads same
        unfold outcome
        rw [selected]
        dsimp only at both ⊢
        generalize s.collect ctx.nodeId (values value) c.makeUnique c.effectiveBatch = x at *
        generalize s'.collect ctx.nodeId (values value) c.makeUnique c.effectiveBatch = y at *
        obtain ⟨handed, left⟩ := x
        obtain ⟨handed', left'⟩ := y
        obtain ⟨rfl, same_left⟩ := both
        cases handed with
        | emit items => exact ⟨rfl, same_left⟩
        | pending held => exact ⟨rfl, same_left⟩
      · have kept := collects.keeps s ne
        unfold outcome
        rw [selected]
        dsimp only at kept ⊢
        generalize s.collect ctx.nodeId (values value) c.makeUnique c.effectiveBatch = x at *
        obtain ⟨handed, left⟩ := x
        cases handed with
        | emit items => exact kept
        | pending held => exact kept

theorem CounterConfig.local_outcome (c : CounterConfig) (ctx : NodeContext) :
    NodeStore.Local ctx.nodeId (c.outcome ctx) := by
  have counts := NodeStore.local_tryIncrement ctx.nodeId c.limit
  refine ⟨fun {s s'} same => ?_, fun s other ne => ?_⟩
  · have both := counts.reads same
    unfold outcome
    generalize s.tryIncrement ctx.nodeId c.limit = x at *
    generalize s'.tryIncrement ctx.nodeId c.limit = y at *
    obtain ⟨counted, left⟩ := x
    obtain ⟨counted', left'⟩ := y
    obtain ⟨rfl, same_left⟩ := both
    cases counted with
    | passed count => exact ⟨rfl, same_left⟩
    | paused count => exact ⟨rfl, same_left⟩
  · have kept := counts.keeps s ne
    unfold outcome
    generalize s.tryIncrement ctx.nodeId c.limit = x at *
    obtain ⟨counted, left⟩ := x
    cases counted with
    | passed count => exact kept
    | paused count => exact kept

/-- Every kind of node reads and writes only what is kept for itself. -/
theorem Node.local_plan (n : Node) (ctx : NodeContext) :
    NodeStore.Local ctx.nodeId (n.plan ctx) := by
  unfold Node.plan
  cases n.validate with
  | error e => exact .untouched ctx.nodeId _
  | ok _ =>
      cases n.config with
      | collector c => exact (c.local_outcome ctx).map Plan.done
      | counter c => exact (c.local_outcome ctx).map Plan.done
      | http | command | database | parser | format | conditional | iterator | test | prompt | rss =>
          exact .untouched ctx.nodeId _

end Flowline
