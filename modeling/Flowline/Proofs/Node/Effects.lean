import Mathlib
import Flowline.Proofs.Node.Faults

/-!
# What failed executions leave behind

An execution that fails with a fault of its own has called nothing, and one that fails at all has
kept nothing (`Node.called_nothing_of_fault`).
-/

namespace Flowline

/-! ## What is kept -/

theorem CollectorConfig.store_outcome {c : CollectorConfig} {ctx : NodeContext}
    {store : NodeStore} {e : NodeError} (failed : (c.outcome ctx store).1 = .error e) :
    (c.outcome ctx store).2 = store := by
  revert failed
  unfold outcome
  split
  · exact fun _ => rfl
  · split <;> nofun

/-- A collector or a counter that fails has kept nothing, and no other node keeps anything. -/
theorem NodeConfig.store_plan {config : NodeConfig} {ctx : NodeContext} {store : NodeStore}
    {e : NodeError} {reply : ServiceReply}
    (failed : (config.plan ctx store).1.resume reply = .error e) :
    (config.plan ctx store).2 = store := by
  cases config with
  | collector c => exact CollectorConfig.store_outcome failed
  | counter c => exact ((c.fails_outcome ctx store) e failed).elim
  | http | command | database | parser | format | conditional | iterator | test | prompt | rss =>
      rfl

/-- A node that calls a service keeps nothing. -/
theorem NodeConfig.store_of_call {config : NodeConfig} {ctx : NodeContext} {store : NodeStore}
    {call : ServiceCall} (calls : (config.plan ctx store).1.call? = some call) :
    (config.plan ctx store).2 = store := by
  cases config with
  | collector | counter => cases calls
  | http | command | database | parser | format | conditional | iterator | test | prompt | rss =>
      rfl

namespace Node

variable {services : Services} {n : Node} {ctx : NodeContext} {store : NodeStore}

theorem store_plan_of_call {call : ServiceCall} (calls : (n.plan ctx store).1.call? = some call) :
    (n.plan ctx store).2 = store := by
  revert calls
  unfold plan
  split
  · exact NodeConfig.store_of_call
  · exact fun _ => rfl

theorem store_plan_of_failed {reply : ServiceReply} {e : NodeError}
    (failed : (n.plan ctx store).1.resume reply = .error e) : (n.plan ctx store).2 = store := by
  revert failed
  unfold plan
  split
  · exact NodeConfig.store_plan
  · exact fun _ => rfl

/-- **An execution that fails with a fault of its own has called nothing, and one that fails at all
has kept nothing**, whatever the services do. -/
theorem called_nothing_of_fault (services : Services) (n : Node) (ctx : NodeContext)
    (store : NodeStore) (e : NodeError) (failed : (n.execute services ctx store).1 = .error e) :
    ((∃ fault, e = .configuration fault) ∨ (∃ fault, e = .evaluation fault) →
      (n.execute services ctx store).2.1 = none) ∧
    (n.execute services ctx store).2.2 = store := by
  cases calls : (n.plan ctx store).1.call? with
  | none =>
      rw [execute_eq_of_no_call calls] at failed ⊢
      dsimp only at failed ⊢
      exact ⟨fun _ => rfl, store_plan_of_failed failed⟩
  | some call =>
      rw [execute_eq_of_call calls] at failed ⊢
      dsimp only at failed ⊢
      refine ⟨fun own => ?_, store_plan_of_call calls⟩
      obtain ⟨fault, rfl⟩ := (n.failsEarly_plan ctx store).external calls _ _ e failed
      rcases own with ⟨fault', same⟩ | ⟨fault', same⟩ <;> cases same

/-- A command whose environment has a template that is no path. -/
def garbled : Node where
  id := "env"
  config := .command { command := "env", env := [⟨"A", "1", true⟩, ⟨"B", "{{a..b}}", true⟩] }

/-- A collector that gathers batches of no size. -/
def bottomless : Node where
  id := "batch"
  config := .collector { batch := true }

/-- A command on services that fail at every call has called one of them, and a command that cannot
be rendered has not; neither has a collector that is set up wrongly, which keeps what it has. -/
theorem called_nothing_of_fault_garbled :
    let services : Services := ⟨⟨fun _ => false, .ok⟩, fun _ => { reply := .failed "down" }⟩
    let ctx : NodeContext := ⟨"env", .obj [], [], ⟨.obj [], []⟩, [], [], 1000, services.directory⟩
    let store : NodeStore := ⟨[("batch", { collected := [.int 1] })]⟩
    let printed := { garbled with config := .command { command := "env" } }
    (garbled.execute services ctx store).2.1 = none ∧
    (garbled.execute services ctx store).2.2 = store ∧
    (bottomless.execute services { ctx with nodeId := "batch" } store).2.1 = none ∧
    (bottomless.execute services { ctx with nodeId := "batch" } store).2.2 = store ∧
    (printed.execute services ctx store).2.1.isSome ∧
    (printed.execute services ctx store).2.2 = store := by
  intro services ctx store printed
  have rendered : ∃ fault, (garbled.execute services ctx store).1 = .error (.evaluation fault) :=
    ⟨_, by cbv⟩
  have refused : (bottomless.execute services { ctx with nodeId := "batch" } store).1 =
      .error (.configuration .zeroBatchSize) := rfl
  have down : (printed.execute services ctx store).1 =
      .error (.external (.command "down")) := by cbv
  obtain ⟨fault, rendered⟩ := rendered
  obtain ⟨uncalled, kept⟩ := called_nothing_of_fault services garbled ctx store _ rendered
  obtain ⟨uncalled', kept'⟩ := called_nothing_of_fault services bottomless _ store _ refused
  refine ⟨uncalled (.inr ⟨fault, rfl⟩), kept, uncalled' (.inl ⟨_, rfl⟩), kept', by cbv, ?_⟩
  exact (called_nothing_of_fault services printed ctx store _ down).2

end Node

end Flowline
