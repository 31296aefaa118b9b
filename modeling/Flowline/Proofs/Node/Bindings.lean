import Flowline.Proofs.Node.Propagation

/-!
# What executions write

Only HTTP requests and commands have a binding (`NodeConfig.binding?`).  An execution of one that
has a binding and does not fail writes one variable, with what the path of the binding finds in the
data of the execution; no other execution writes any (`Node.CanComeTo.binds`).
-/

namespace Flowline

/-- The binding of the settings, and the path that it has unless it sets one. -/
def NodeConfig.binding? : NodeConfig → Option (VariableBinding × String)
  | .http c => c.binding.map (·, "response.data")
  | .command c => c.binding.map (·, "stdout")
  | _ => none

/-- The trimmed name of the variable. -/
def VariableBinding.target (b : VariableBinding) : String :=
  if b.name = createNew then (b.newName.map trim).getD "" else trim b.name

/-- What comes to be written, given a binding with its default path, the data of an execution, and
whether it failed. -/
structure Binds (binding : Option (VariableBinding × String)) (data : Json) (failed : Bool)
    (written : List (String × String)) : Prop where
  silent : binding = none ∨ failed = true → written = []
  single : ∀ b path, binding = some (b, path) → failed = false →
    ∃ found, query data (b.path.getD path) = .ok found ∧
      written = [(b.target, trim ((found.map Template.stringify).getD ""))]

/-- The output writes what the binding says. -/
def NodeOutput.Binds (binding : Option (VariableBinding × String)) (output : NodeOutput) : Prop :=
  Flowline.Binds binding output.data output.failure.isSome output.variables

/-- The execution writes what the binding says. -/
def Execution.Binds (binding : Option (VariableBinding × String)) (x : Execution) : Prop :=
  Flowline.Binds binding x.data x.failed x.variables

/-- The output writes nothing. -/
def NodeOutput.Silent (output : NodeOutput) : Prop := output.variables = []

theorem NodeOutput.Silent.binds {output : NodeOutput} (silent : output.Silent) :
    output.Binds none :=
  ⟨fun _ => silent, fun _ _ some_bound => nomatch some_bound⟩

/-! ## Bindings -/

namespace VariableBinding

theorem eq_target_of_targetName {b : VariableBinding} {name : String}
    (named : b.targetName = .ok name) : name = b.target := by
  have named : (if b.target = "" then .error (.configuration .noVariableName)
      else (validatePath? b.path).map fun _ => b.target) = .ok name := named
  split at named
  · cases named
  · cases readable : validatePath? b.path with
    | error e =>
        rw [readable] at named
        cases named
    | ok =>
        rw [readable] at named
        exact (Except.ok.inj named).symm

/-- What a binding writes, if it does not fail. -/
theorem binds_of_writes {binding : Option VariableBinding} {output : Json} {path : String}
    {written : List (String × String)} (writes : writes binding output path = .ok written) :
    Binds (binding.map (·, path)) output false written := by
  cases binding with
  | none =>
      cases writes
      exact ⟨fun _ => rfl, fun _ _ some_bound => nomatch some_bound⟩
  | some b =>
      refine ⟨fun silent => by simp at silent, fun b' path' same _ => ?_⟩
      obtain ⟨rfl, rfl⟩ := Prod.mk.inj (Option.some.inj same)
      unfold VariableBinding.writes at writes
      dsimp only at writes
      cases named : b.targetName with
      | error e =>
          rw [named] at writes
          cases writes
      | ok name =>
          rw [named] at writes
          cases found : query output (b.path.getD path) with
          | error e =>
              rw [found] at writes
              cases writes
          | ok value =>
              rw [found] at writes
              rw [← eq_target_of_targetName named]
              exact ⟨value, rfl, (Except.ok.inj writes).symm⟩

end VariableBinding

/-! ## Each kind of node -/

theorem HttpConfig.binds_output (c : HttpConfig) (r : HttpResponse) :
    Yields (NodeOutput.Binds (c.binding.map (·, "response.data"))) (c.output r) := by
  unfold output
  dsimp only
  cases writes : VariableBinding.writes c.binding _ "response.data" with
  | error e => exact .error e
  | ok written => exact .ok (VariableBinding.binds_of_writes writes)

theorem HttpConfig.binds_plan (c : HttpConfig) (ctx : NodeContext) :
    (c.plan ctx).Ends (NodeOutput.Binds (c.binding.map (·, "response.data"))) := by
  refine Plan.ends_orFail (.guard (.bind fun url => .bind fun headers => .bind fun query => ?_))
  dsimp only
  split
  · split
    · exact .bind fun _ => .ok (Plan.ends_http c.binds_output fun _ => .error _)
    · exact .bind fun _ => .ok (Plan.ends_http c.binds_output fun _ => .error _)
  · exact .bind fun _ => .ok (Plan.ends_http c.binds_output fun _ => .error _)

theorem CommandConfig.binds_output (c : CommandConfig) (o : CommandOutput) :
    Yields (NodeOutput.Binds (c.binding.map (·, "stdout"))) (c.output o) := by
  unfold output
  dsimp only
  split
  · cases writes : VariableBinding.writes c.binding _ "stdout" with
    | error e => exact .error e
    | ok written => exact .ok (VariableBinding.binds_of_writes writes)
  · exact .ok ⟨fun _ => rfl, fun _ _ _ succeeded => nomatch succeeded⟩

theorem CommandConfig.binds_plan (c : CommandConfig) (ctx : NodeContext) :
    (c.plan ctx).Ends (NodeOutput.Binds (c.binding.map (·, "stdout"))) := by
  refine Plan.ends_orFail (.guard (.bind fun command => ?_))
  dsimp only
  split
  · exact .bind fun _ => .bind fun _ => .ok (Plan.ends_exec c.binds_output fun _ => .error _)
  · exact .bind fun _ => .bind fun _ => .ok (Plan.ends_exec c.binds_output fun _ => .error _)

open NodeOutput (Silent)

theorem DatabaseConfig.silent_plan (c : DatabaseConfig) (ctx : NodeContext) :
    (c.plan ctx).Ends Silent :=
  Plan.ends_orFail (.guard (.guard (.guard (.bind fun _ => .bind fun _ => .ok
    (Plan.ends_query (fun _ => .ok rfl) fun _ => .error _)))))

theorem RssConfig.silent_output (c : RssConfig) (r : HttpResponse) :
    Yields Silent (c.output r) := by
  unfold output
  refine .guard (.bind fun document => ?_)
  dsimp only
  split
  · exact .ok rfl
  · exact .error _

theorem RssConfig.silent_plan (c : RssConfig) (ctx : NodeContext) : (c.plan ctx).Ends Silent :=
  Plan.ends_orFail (.guard (.bind fun _ => .ok
    (Plan.ends_http c.silent_output fun _ => .error _)))

theorem PromptConfig.silent_completion (i : Integration) (model : String) (r : HttpResponse) :
    Yields Silent (completion i model r) := by
  unfold completion
  refine .guard ?_
  dsimp only
  split
  · split
    · exact .ok rfl
    · exact .error _
  · exact .error _

theorem PromptConfig.silent_plan (c : PromptConfig) (ctx : NodeContext) :
    (c.plan ctx).Ends Silent :=
  Plan.ends_orFail (.bind fun i => .guard (.bind fun _ => .guard (.guard (.bind fun _ => .ok
    (Plan.ends_http (silent_completion i _) fun _ => .error _)))))

theorem FormatConfig.silent_outcome (c : FormatConfig) (ctx : NodeContext) :
    Yields Silent (c.outcome ctx) := by
  refine .bind fun text => ?_
  split
  · exact .ok rfl
  · split
    · exact .ok rfl
    · exact .error _

theorem TestConfig.silent_outcome (c : TestConfig) (ctx : NodeContext) :
    Yields Silent (c.outcome ctx) := by
  refine .bind fun verdicts => ?_
  dsimp only
  split
  · exact .ok rfl
  · exact .ok rfl

theorem CollectorConfig.silent_outcome (c : CollectorConfig) (ctx : NodeContext)
    (store : NodeStore) : Yields Silent (c.outcome ctx store).1 := by
  unfold outcome
  split
  · exact .error _
  · split
    · exact .ok rfl
    · exact .ok rfl

theorem CounterConfig.silent_outcome (c : CounterConfig) (ctx : NodeContext) (store : NodeStore) :
    Yields Silent (c.outcome ctx store).1 := by
  unfold outcome
  split
  · exact .ok rfl
  · exact .ok rfl

/-! ## All kinds -/

theorem NodeConfig.binds_plan (config : NodeConfig) (ctx : NodeContext) (store : NodeStore) :
    (config.plan ctx store).1.Ends (NodeOutput.Binds config.binding?) := by
  have silent {plan : Plan} (ends : plan.Ends Silent) : plan.Ends (NodeOutput.Binds none) :=
    ends.imp fun _ => Silent.binds
  cases config <;> dsimp only [plan]
  case http c => exact c.binds_plan ctx
  case command c => exact c.binds_plan ctx
  case database c => exact silent (c.silent_plan ctx)
  case parser c =>
    exact silent (Plan.ends_done (.bind fun _ => .bind fun _ => .bind fun _ => .ok rfl))
  case format c => exact silent (Plan.ends_done (c.silent_outcome ctx))
  case conditional c => exact silent (Plan.ends_done (.bind fun _ => .ok rfl))
  case iterator c => exact silent (Plan.ends_done (.bind fun _ => .ok rfl))
  case collector c => exact silent (Plan.ends_done (c.silent_outcome ctx store))
  case counter c => exact silent (Plan.ends_done (c.silent_outcome ctx store))
  case test c => exact silent (Plan.ends_done (c.silent_outcome ctx))
  case prompt c => exact silent (c.silent_plan ctx)
  case rss c => exact silent (c.silent_plan ctx)

/-- What a node comes to writes what its binding says. -/
theorem Node.CanComeTo.binds {n : Node} {x : Execution} (can : n.CanComeTo x) :
    x.Binds n.config.binding? := by
  obtain ⟨ctx, store, outcome, ends, rfl⟩ := can
  have planned : (n.plan ctx store).1.Ends (NodeOutput.Binds n.config.binding?) := by
    unfold plan
    split
    · exact n.config.binds_plan ctx store
    · exact Plan.ends_done (.error _)
  have error (e : NodeError) : (Execution.ofOutcome (.error e)).Binds n.config.binding? :=
    ⟨fun _ => rfl, fun _ _ _ succeeded => nomatch succeeded⟩
  rcases ends with ⟨reply, rfl⟩ | ⟨limit, rfl⟩
  · cases came : (n.plan ctx store).1.resume reply with
    | error e => exact error e
    | ok output =>
        have binds := planned reply output came
        unfold NodeOutput.Binds at binds
        rw [← Option.isSome_map (f := NodeError.message)] at binds
        exact binds
  · exact error _

end Flowline
