import Flowline.Proofs.Run.Wave

/-!
# How executions go on

Most nodes go on along every edge behind them.  Conditions select a branch, collectors and counters
may stop, and iterators hand on payloads (`Node.CanComeTo.not_iterate`); but none of these does so
when it fails (`Node.CanComeTo.all_of_failed`).
-/

namespace Flowline

/-- What has the property, or fails. -/
def Yields {α : Type} (P : α → Prop) (x : Except NodeError α) : Prop := ∀ a, x = .ok a → P a

namespace Yields

variable {α β : Type} {P : β → Prop}

theorem ok {b : β} (holds : P b) : Yields P (.ok b) := by
  rintro _ ⟨⟩
  exact holds

theorem error (e : NodeError) : Yields P (.error e) := by
  rintro _ ⟨⟩

theorem bind_ok {x : Except NodeError α} {k : α → Except NodeError β}
    (rest : ∀ a, x = .ok a → Yields P (k a)) : Yields P (x >>= k) := by
  cases x with
  | error e => exact Yields.error e
  | ok a => exact rest a rfl

theorem bind {x : Except NodeError α} {k : α → Except NodeError β} (rest : ∀ a, Yields P (k a)) :
    Yields P (x >>= k) := bind_ok fun a _ => rest a

/-- What is checked first does not matter. -/
theorem guard {c : Prop} [Decidable c] {e : NodeError} {k : PUnit → Except NodeError β}
    (rest : Yields P (k ⟨⟩)) : Yields P (if c then throw e >>= k else k ⟨⟩) := by
  split
  · exact Yields.error e
  · exact rest

end Yields

/-- The plan ends in outputs with the property, or fails. -/
def Plan.Ends (P : NodeOutput → Prop) (plan : Plan) : Prop :=
  ∀ reply, Yields P (plan.resume reply)

/-- The output goes on along every edge. -/
def NodeOutput.Forward (output : NodeOutput) : Prop := output.propagation = .all

/-- The output goes on along every edge, or it is no failure and hands on no payloads, unless it is
that of an iterator. -/
def NodeOutput.Regular (kind : NodeKind) (output : NodeOutput) : Prop :=
  output.Forward ∨ output.failure = none ∧
    ∀ payloads, output.propagation = .iterate payloads → kind = .iterator

namespace Plan

section

variable {P Q : NodeOutput → Prop}

theorem Ends.imp {plan : Plan} (ends : plan.Ends P) (weaker : ∀ output, P output → Q output) :
    plan.Ends Q := fun reply output same => weaker output (ends reply output same)

theorem ends_done {outcome : Outcome} (yields : Yields P outcome) : (done outcome).Ends P :=
  fun _ => yields

theorem ends_orFail {x : Except NodeError Plan} (yields : Yields (Ends P) x) :
    (orFail x).Ends P := by
  cases x with
  | error e => exact fun _ => .error e
  | ok plan => exact yields plan rfl

end

section

variable {P : NodeOutput → Prop}

theorem yields_of_reply {α : Type} {finish : Except String α → Outcome}
    (answered : ∀ a, Yields P (finish (.ok a)))
    (failed : ∀ reason, Yields P (finish (.error reason))) (reply : Except String α) :
    Yields P (finish reply) := by
  cases reply with
  | ok a => exact answered a
  | error reason => exact failed reason

theorem ends_http {request : HttpRequest} {finish : Except String HttpResponse → Outcome}
    (answered : ∀ response, Yields P (finish (.ok response)))
    (failed : ∀ reason, Yields P (finish (.error reason))) : (http request finish).Ends P := by
  intro reply
  cases reply <;> exact yields_of_reply answered failed _

theorem ends_exec {request : CommandRequest} {finish : Except String CommandOutput → Outcome}
    (answered : ∀ output, Yields P (finish (.ok output)))
    (failed : ∀ reason, Yields P (finish (.error reason))) : (exec request finish).Ends P := by
  intro reply
  cases reply <;> exact yields_of_reply answered failed _

theorem ends_query {q : SqlQuery} {finish : Except String (List Json) → Outcome}
    (answered : ∀ rows, Yields P (finish (.ok rows)))
    (failed : ∀ reason, Yields P (finish (.error reason))) : (query q finish).Ends P := by
  intro reply
  cases reply <;> exact yields_of_reply answered failed _

end

end Plan

/-! ## Each kind of node -/

open NodeOutput (Forward Regular)

theorem HttpConfig.forward_output (c : HttpConfig) (r : HttpResponse) :
    Yields Forward (c.output r) :=
  .bind fun _ => .ok rfl

theorem HttpConfig.forward_plan (c : HttpConfig) (ctx : NodeContext) :
    (c.plan ctx).Ends Forward := by
  refine Plan.ends_orFail (.guard (.bind fun url => .bind fun headers => .bind fun query => ?_))
  dsimp only
  split
  · split
    · exact .bind fun _ => .ok (Plan.ends_http c.forward_output fun _ => .error _)
    · exact .bind fun _ => .ok (Plan.ends_http c.forward_output fun _ => .error _)
  · exact .bind fun _ => .ok (Plan.ends_http c.forward_output fun _ => .error _)

theorem CommandConfig.forward_output (c : CommandConfig) (o : CommandOutput) :
    Yields Forward (c.output o) := by
  unfold output
  dsimp only
  split
  · exact .bind fun _ => .ok rfl
  · exact .ok rfl

theorem CommandConfig.forward_plan (c : CommandConfig) (ctx : NodeContext) :
    (c.plan ctx).Ends Forward := by
  refine Plan.ends_orFail (.guard (.bind fun command => ?_))
  dsimp only
  split
  · exact .bind fun _ => .bind fun _ => .ok (Plan.ends_exec c.forward_output fun _ => .error _)
  · exact .bind fun _ => .bind fun _ => .ok (Plan.ends_exec c.forward_output fun _ => .error _)

theorem DatabaseConfig.forward_plan (c : DatabaseConfig) (ctx : NodeContext) :
    (c.plan ctx).Ends Forward :=
  Plan.ends_orFail (.guard (.guard (.guard (.bind fun _ => .bind fun _ => .ok
    (Plan.ends_query (fun _ => .ok rfl) fun _ => .error _)))))

theorem RssConfig.forward_output (c : RssConfig) (r : HttpResponse) :
    Yields Forward (c.output r) := by
  unfold output
  refine .guard (.bind fun document => ?_)
  dsimp only
  split
  · exact .ok rfl
  · exact .error _

theorem RssConfig.forward_plan (c : RssConfig) (ctx : NodeContext) : (c.plan ctx).Ends Forward :=
  Plan.ends_orFail (.guard (.bind fun _ => .ok
    (Plan.ends_http c.forward_output fun _ => .error _)))

theorem PromptConfig.forward_completion (i : Integration) (model : String) (r : HttpResponse) :
    Yields Forward (completion i model r) := by
  unfold completion
  refine .guard ?_
  dsimp only
  split
  · split
    · exact .ok rfl
    · exact .error _
  · exact .error _

theorem PromptConfig.forward_plan (c : PromptConfig) (ctx : NodeContext) :
    (c.plan ctx).Ends Forward :=
  Plan.ends_orFail (.bind fun i => .guard (.bind fun _ => .guard (.guard (.bind fun _ => .ok
    (Plan.ends_http (forward_completion i _) fun _ => .error _)))))

theorem FormatConfig.forward_outcome (c : FormatConfig) (ctx : NodeContext) :
    Yields Forward (c.outcome ctx) := by
  refine .bind fun text => ?_
  split
  · exact .ok rfl
  · split
    · exact .ok rfl
    · exact .error _

theorem TestConfig.forward_outcome (c : TestConfig) (ctx : NodeContext) :
    Yields Forward (c.outcome ctx) := by
  refine .bind fun verdicts => ?_
  dsimp only
  split
  · exact .ok rfl
  · exact .ok rfl

theorem ConditionalConfig.regular_outcome (c : ConditionalConfig) (ctx : NodeContext) :
    Yields (Regular .conditional) (c.outcome ctx) :=
  .bind fun _ => .ok (Or.inr ⟨rfl, fun _ same => by cases same⟩)

theorem IteratorConfig.regular_outcome (c : IteratorConfig) (ctx : NodeContext) :
    Yields (Regular .iterator) (c.outcome ctx) :=
  .bind fun _ => .ok (Or.inr ⟨rfl, fun _ _ => rfl⟩)

theorem CollectorConfig.regular_outcome (c : CollectorConfig) (ctx : NodeContext)
    (store : NodeStore) : Yields (Regular .collector) (c.outcome ctx store).1 := by
  unfold outcome
  split
  · exact .error _
  · split
    · exact .ok (Or.inl rfl)
    · exact .ok (Or.inr ⟨rfl, fun _ same => by cases same⟩)

theorem CounterConfig.regular_outcome (c : CounterConfig) (ctx : NodeContext)
    (store : NodeStore) : Yields (Regular .counter) (c.outcome ctx store).1 := by
  unfold outcome
  split
  · exact .ok (Or.inl rfl)
  · exact .ok (Or.inr ⟨rfl, fun _ same => by cases same⟩)

/-! ## All kinds -/

theorem NodeConfig.regular_plan (config : NodeConfig) (ctx : NodeContext) (store : NodeStore) :
    (config.plan ctx store).1.Ends (Regular config.kind) := by
  have forward {plan : Plan} (ends : plan.Ends Forward) : plan.Ends (Regular config.kind) :=
    ends.imp fun _ => Or.inl
  cases config <;> dsimp only [plan]
  case http c => exact forward (c.forward_plan ctx)
  case command c => exact forward (c.forward_plan ctx)
  case database c => exact forward (c.forward_plan ctx)
  case parser c =>
    exact forward (Plan.ends_done (.bind fun _ => .bind fun _ => .bind fun _ => .ok rfl))
  case format c => exact forward (Plan.ends_done (c.forward_outcome ctx))
  case conditional c => exact Plan.ends_done (c.regular_outcome ctx)
  case iterator c => exact Plan.ends_done (c.regular_outcome ctx)
  case collector c => exact Plan.ends_done (c.regular_outcome ctx store)
  case counter c => exact Plan.ends_done (c.regular_outcome ctx store)
  case test c => exact forward (Plan.ends_done (c.forward_outcome ctx))
  case prompt c => exact forward (c.forward_plan ctx)
  case rss c => exact forward (c.forward_plan ctx)

namespace Node.CanComeTo

variable {n : Node} {x : Execution}

/-- An execution is that of an outcome whose output, if it has one, is regular. -/
theorem exists_outcome (can : n.CanComeTo x) :
    ∃ outcome, x = .ofOutcome outcome ∧ Yields (Regular n.kind) outcome := by
  obtain ⟨ctx, store, outcome, ends, rfl⟩ := can
  have planned : (n.plan ctx store).1.Ends (Regular n.kind) := by
    unfold plan
    split
    · exact n.config.regular_plan ctx store
    · exact Plan.ends_done (.error _)
  refine ⟨outcome, rfl, ?_⟩
  rcases ends with ⟨reply, rfl⟩ | ⟨limit, rfl⟩
  · exact planned reply
  · exact .error _

/-- A node that is no iterator hands on no payloads. -/
theorem not_iterate (can : n.CanComeTo x) (kind : n.kind ≠ .iterator) (payloads : List Json) :
    x.propagation ≠ .iterate payloads := by
  obtain ⟨outcome, rfl, regular⟩ := can.exists_outcome
  intro same
  cases outcome with
  | error e => cases same
  | ok output =>
      rcases regular output rfl with forward | ⟨-, only⟩
      · cases forward.symm.trans same
      · exact kind (only payloads same)

/-- A node that fails goes on along every edge, if it goes on at all. -/
theorem all_of_failed (can : n.CanComeTo x) (failed : x.failed = true) : x.propagation = .all := by
  obtain ⟨outcome, rfl, regular⟩ := can.exists_outcome
  cases outcome with
  | error e => rfl
  | ok output =>
      rcases regular output rfl with forward | ⟨none_failed, -⟩
      · exact forward
      · have failed : (output.failure.map (·.message)).isSome = true := failed
        rw [none_failed] at failed
        cases failed

end Node.CanComeTo

end Flowline
