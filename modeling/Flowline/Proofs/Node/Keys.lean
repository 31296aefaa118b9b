import Flowline.Node.Plan

/-!
# Where keys go

The keys of integrations are decrypted for one purpose, the headers of a request that carry them
(`ServiceCall.veiled` blots those out).  A node plans the same with other keys but for these
headers, and keeps the same (`Node.plan_withKeys`); so it makes the same calls but for them, and
comes to the same outcome in the end (`Plan.resume_veiled`).
-/

namespace Flowline

/-! ## Calls without keys -/

/-- The headers that carry keys. -/
def keyHeaderNames : List String := ["Authorization", "x-api-key"]

/-- The header, with its value blotted out if it carries a key. -/
def veilHeader (header : String × String) : String × String :=
  if keyHeaderNames.contains header.1 then (header.1, "") else header

/-- The request without the values of the headers that carry keys. -/
def HttpRequest.veiled (r : HttpRequest) : HttpRequest :=
  { r with headers := r.headers.map veilHeader }

/-- The call without the values of the headers that carry keys. -/
def ServiceCall.veiled : ServiceCall → ServiceCall
  | .http request => .http request.veiled
  | call => call

namespace Plan

/-- The plan without the values of the headers that carry keys. -/
def veiled : Plan → Plan
  | .http request finish => .http request.veiled finish
  | plan => plan

theorem call?_veiled (plan : Plan) : plan.veiled.call? = plan.call?.map ServiceCall.veiled := by
  cases plan <;> rfl

/-- What a plan comes to does not depend on keys. -/
theorem resume_veiled (plan : Plan) (reply : ServiceReply) :
    plan.veiled.resume reply = plan.resume reply := by
  cases plan <;> rfl

theorem outcomeAfter_veiled (plan : Plan) (treatment : Treatment) (timeoutMs : Nat) :
    plan.veiled.outcomeAfter treatment timeoutMs = plan.outcomeAfter treatment timeoutMs := by
  unfold outcomeAfter
  rw [resume_veiled]

/-- Plans that are the same without keys call nothing, or make calls that are the same without
keys. -/
theorem call?_cases {plan plan' : Plan} (same : plan'.veiled = plan.veiled) :
    (plan.call? = none ∧ plan'.call? = none) ∨
      ∃ call call', plan.call? = some call ∧ plan'.call? = some call' ∧
        call'.veiled = call.veiled := by
  have calls := congrArg call? same
  rw [call?_veiled, call?_veiled] at calls
  cases first : plan.call? with
  | none =>
      rw [first, Option.map_none, Option.map_eq_none_iff] at calls
      exact Or.inl ⟨rfl, calls⟩
  | some call =>
      rw [first, Option.map_some, Option.map_eq_some_iff] at calls
      obtain ⟨call', second, veiled⟩ := calls
      exact Or.inr ⟨call, call', rfl, second, veiled⟩

end Plan

/-! ## Nodes with other keys -/

/-- Two ways to decrypt agree on what can be decrypted, and on why the rest cannot. -/
def DecryptsLike (decrypt decrypt' : String → Except String String) : Prop :=
  ∀ locked, (decrypt' locked).map (fun _ => ()) = (decrypt locked).map fun _ => ()

theorem DecryptsLike.cases {decrypt decrypt' : String → Except String String}
    (like : DecryptsLike decrypt decrypt') (locked : String) :
    (∃ reason, decrypt locked = .error reason ∧ decrypt' locked = .error reason) ∨
      ∃ key key', decrypt locked = .ok key ∧ decrypt' locked = .ok key' := by
  have agree := like locked
  cases first : decrypt locked with
  | error reason =>
      cases second : decrypt' locked with
      | error reason' =>
          rw [first, second] at agree
          obtain rfl := Except.error.inj agree
          exact Or.inl ⟨_, rfl, rfl⟩
      | ok key' =>
          rw [first, second] at agree
          cases agree
  | ok key =>
      cases second : decrypt' locked with
      | error reason' =>
          rw [first, second] at agree
          cases agree
      | ok key' => exact Or.inr ⟨key, key', rfl, rfl⟩

/-- The context with another way to decrypt keys. -/
def NodeContext.withKeys (ctx : NodeContext) (decrypt : String → Except String String) :
    NodeContext :=
  { ctx with directory := { ctx.directory with decrypt } }

namespace NodeContext

variable (ctx : NodeContext) (decrypt : String → Except String String)

@[simp] theorem nodeId_withKeys : (ctx.withKeys decrypt).nodeId = ctx.nodeId := rfl

@[simp] theorem scope_withKeys : (ctx.withKeys decrypt).scope = ctx.scope := rfl

@[simp] theorem integrations_withKeys : (ctx.withKeys decrypt).integrations = ctx.integrations :=
  rfl

@[simp] theorem previous_withKeys : (ctx.withKeys decrypt).previous = ctx.previous := rfl

@[simp] theorem timeoutMs_withKeys : (ctx.withKeys decrypt).timeoutMs = ctx.timeoutMs := rfl

@[simp] theorem hasConnection_withKeys :
    (ctx.withKeys decrypt).directory.hasConnection = ctx.directory.hasConnection := rfl

@[simp] theorem decrypt_withKeys : (ctx.withKeys decrypt).directory.decrypt = decrypt := rfl

@[simp] theorem render_withKeys : (ctx.withKeys decrypt).render = ctx.render := rfl

@[simp] theorem renderValue_withKeys : (ctx.withKeys decrypt).renderValue = ctx.renderValue := rfl

@[simp] theorem renderPairs_withKeys : (ctx.withKeys decrypt).renderPairs = ctx.renderPairs := rfl

@[simp] theorem primaryInput_withKeys : (ctx.withKeys decrypt).primaryInput = ctx.primaryInput :=
  rfl

@[simp] theorem select_withKeys : (ctx.withKeys decrypt).select = ctx.select := rfl

end NodeContext

/-! ### Nodes that use no keys -/

section

variable (ctx : NodeContext) (decrypt : String → Except String String)

theorem HttpConfig.plan_withKeys (c : HttpConfig) : c.plan (ctx.withKeys decrypt) = c.plan ctx := by
  simp [plan]

theorem CommandConfig.plan_withKeys (c : CommandConfig) :
    c.plan (ctx.withKeys decrypt) = c.plan ctx := by
  simp [plan]

theorem DatabaseConfig.plan_withKeys (c : DatabaseConfig) :
    c.plan (ctx.withKeys decrypt) = c.plan ctx := by
  simp [plan]

theorem RssConfig.plan_withKeys (c : RssConfig) : c.plan (ctx.withKeys decrypt) = c.plan ctx := by
  simp [plan]

theorem ParserConfig.outcome_withKeys (c : ParserConfig) :
    c.outcome (ctx.withKeys decrypt) = c.outcome ctx := by
  simp [outcome, source]

theorem FormatConfig.outcome_withKeys (c : FormatConfig) :
    c.outcome (ctx.withKeys decrypt) = c.outcome ctx := by
  simp [outcome]

theorem ConditionalConfig.firstHolding_withKeys (index : Nat) (conditions : List Condition) :
    firstHolding (ctx.withKeys decrypt) index conditions = firstHolding ctx index conditions := by
  induction conditions generalizing index with
  | nil => rfl
  | cons c rest ih => simp [firstHolding, ih]

theorem ConditionalConfig.outcome_withKeys (c : ConditionalConfig) :
    c.outcome (ctx.withKeys decrypt) = c.outcome ctx := by
  simp [outcome, firstHolding_withKeys]

theorem IteratorConfig.outcome_withKeys (c : IteratorConfig) :
    c.outcome (ctx.withKeys decrypt) = c.outcome ctx := by
  simp [outcome, elements]

theorem CollectorConfig.outcome_withKeys (c : CollectorConfig) :
    c.outcome (ctx.withKeys decrypt) = c.outcome ctx := by
  funext store
  simp [outcome]

theorem CounterConfig.outcome_withKeys (c : CounterConfig) :
    c.outcome (ctx.withKeys decrypt) = c.outcome ctx := by
  funext store
  simp [outcome]

theorem TestConfig.outcome_withKeys (c : TestConfig) :
    c.outcome (ctx.withKeys decrypt) = c.outcome ctx := by
  simp [outcome, resultOf]

end

/-! ### Prompts -/

/-- The headers that carry the key are blotted out. -/
theorem Provider.veil_keyHeaders (p : Provider) (key key' : String) :
    (p.keyHeaders key').map veilHeader = (p.keyHeaders key).map veilHeader := by
  have veils (name : String) (known : keyHeaderNames.contains name = true) (value value' : String) :
      veilHeader (name, value') = veilHeader (name, value) :=
    (if_pos known).trans (if_pos known).symm
  cases p with
  | openAi => exact congrArg (· :: _) (veils "Authorization" (by decide) _ _)
  | anthropic => exact congrArg (· :: _) (veils "x-api-key" (by decide) _ _)

namespace PromptConfig

theorem veiled_request (c : PromptConfig) (ctx : NodeContext)
    (decrypt : String → Except String String) (i : Integration) (key key' model prompt : String) :
    (c.request (ctx.withKeys decrypt) i key' model prompt).veiled =
      (c.request ctx i key model prompt).veiled := by
  unfold request HttpRequest.veiled
  rw [List.map_append, List.map_append, i.provider.veil_keyHeaders key key',
    NodeContext.timeoutMs_withKeys]

/-- The plan of a prompt once its key is decrypted. -/
def planWith (c : PromptConfig) (ctx : NodeContext) (i : Integration) (key : String) :
    Except NodeError Plan := do
  let model := (NodeContext.givenPath? c.model).getD i.model
  if model = "" then throw (.configuration .noModel)
  if trim c.prompt = "" then throw (.configuration .noPrompt)
  let prompt ← ctx.render c.prompt
  return .http (c.request ctx i key model prompt) fun
    | .ok response => completion i model response
    | .error reason => .error (.external (.model reason))

theorem plan_eq (c : PromptConfig) (ctx : NodeContext) :
    c.plan ctx = .orFail (do
      let i ← c.integration ctx
      if trim i.apiKey = "" then throw (.configuration (.noApiKey i.id))
      let key ← (ctx.directory.decrypt i.apiKey).mapError fun reason =>
        NodeError.configuration (.lockedApiKey i.id reason)
      c.planWith ctx i key) := rfl

/-- The key only goes into the headers that are blotted out. -/
theorem veiled_planWith (c : PromptConfig) (ctx : NodeContext)
    (decrypt : String → Except String String) (i : Integration) (key key' : String) :
    (Plan.orFail (c.planWith (ctx.withKeys decrypt) i key')).veiled =
      (Plan.orFail (c.planWith ctx i key)).veiled := by
  have requests (model prompt : String) :=
    c.veiled_request ctx decrypt i key key' model prompt
  have stops (e : NodeError) (k : PUnit → Except NodeError Plan) :
      (throw e >>= k) = .error e := rfl
  unfold planWith
  rw [NodeContext.render_withKeys]
  dsimp only
  simp only [stops]
  split
  · rfl
  · split
    · rfl
    · cases ctx.render c.prompt with
      | error e => rfl
      | ok prompt => exact congrArg (Plan.http · _) (requests _ prompt)

theorem veiled_plan (c : PromptConfig) (ctx : NodeContext)
    {decrypt : String → Except String String} (like : DecryptsLike ctx.directory.decrypt decrypt) :
    (c.plan (ctx.withKeys decrypt)).veiled = (c.plan ctx).veiled := by
  have finds : c.integration (ctx.withKeys decrypt) = c.integration ctx := by
    simp [integration]
  rw [plan_eq, plan_eq, finds, NodeContext.decrypt_withKeys]
  cases c.integration ctx with
  | error e => dsimp only [bind, Except.bind]
  | ok i =>
      have planned := fun key key' => c.veiled_planWith ctx decrypt i key key'
      dsimp only [bind, Except.bind]
      split
      · rfl
      · rcases like.cases i.apiKey with ⟨reason, first, second⟩ | ⟨key, key', first, second⟩
        · rw [first, second]
          rfl
        · rw [first, second]
          exact planned key key'

end PromptConfig

/-- A node plans the same with other keys but for the headers that carry them, and keeps the
same. -/
theorem Node.plan_withKeys (n : Node) (ctx : NodeContext) (store : NodeStore)
    {decrypt : String → Except String String} (like : DecryptsLike ctx.directory.decrypt decrypt) :
    (n.plan (ctx.withKeys decrypt) store).1.veiled = (n.plan ctx store).1.veiled ∧
      (n.plan (ctx.withKeys decrypt) store).2 = (n.plan ctx store).2 := by
  unfold Node.plan
  cases n.validate with
  | error e => exact ⟨rfl, rfl⟩
  | ok _ =>
      dsimp only
      cases n.config <;> dsimp only [NodeConfig.plan]
      case prompt c => exact ⟨c.veiled_plan ctx like, rfl⟩
      case http c => rw [c.plan_withKeys]; exact ⟨rfl, rfl⟩
      case command c => rw [c.plan_withKeys]; exact ⟨rfl, rfl⟩
      case database c => rw [c.plan_withKeys]; exact ⟨rfl, rfl⟩
      case rss c => rw [c.plan_withKeys]; exact ⟨rfl, rfl⟩
      case parser c => rw [c.outcome_withKeys]; exact ⟨rfl, rfl⟩
      case format c => rw [c.outcome_withKeys]; exact ⟨rfl, rfl⟩
      case conditional c => rw [c.outcome_withKeys]; exact ⟨rfl, rfl⟩
      case iterator c => rw [c.outcome_withKeys]; exact ⟨rfl, rfl⟩
      case collector c => rw [c.outcome_withKeys]; exact ⟨rfl, rfl⟩
      case counter c => rw [c.outcome_withKeys]; exact ⟨rfl, rfl⟩
      case test c => rw [c.outcome_withKeys]; exact ⟨rfl, rfl⟩

end Flowline
