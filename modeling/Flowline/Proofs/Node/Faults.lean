import Flowline.Proofs.Node.Propagation
import Flowline.Proofs.Path.Meaning
import Flowline.Proofs.Text.Trim

/-!
# Why executions fail

Whatever is wrong with the settings of a node or with the data that they refer to is found before
the node calls a service.  Behind the call only the outside world can fail: the one thing that is
still read there, the path of a variable binding, has passed the validation of the node.

* `Plan.FailsEarly`: the plans that are like this.
* `Path.Readable`, `validatePath_eq_ok_iff`: what validation says about a path, and what follows
  where the path is used with or without the blanks around it.
* `Node.failsEarly_plan`: every kind of node has such a plan, and a query error is always one that a
  template of the node raises.
-/

namespace Flowline

/-- What fails only with errors that have the property. -/
def Fails {α : Type} (P : NodeError → Prop) (x : Except NodeError α) : Prop :=
  ∀ e, x = .error e → P e

namespace Fails

variable {α β : Type} {P Q : NodeError → Prop}

theorem ok (a : α) : Fails P (.ok a) := nofun

theorem error {e : NodeError} (holds : P e) : Fails P (.error e : Except NodeError α) := by
  intro other same
  cases same
  exact holds

theorem imp {x : Except NodeError α} (fails : Fails P x) (weaker : ∀ e, P e → Q e) : Fails Q x :=
  fun e same => weaker e (fails e same)

theorem bind {x : Except NodeError α} {k : α → Except NodeError β} (first : Fails P x)
    (rest : ∀ a, x = .ok a → Fails P (k a)) : Fails P (x >>= k) := by
  cases x with
  | error e => exact error (first e rfl)
  | ok a => exact rest a rfl

theorem map {x : Except NodeError α} (fails : Fails P x) (f : α → β) : Fails P (f <$> x) := by
  cases x with
  | error e => exact error (fails e rfl)
  | ok a => exact ok _

/-- What is checked first. -/
theorem guard {c : Prop} [Decidable c] {e : NodeError} {k : PUnit → Except NodeError β}
    (holds : P e) (rest : Fails P (k ⟨⟩)) : Fails P (if c then throw e >>= k else k ⟨⟩) := by
  split
  · exact error holds
  · exact rest

theorem mapM {f : α → Except NodeError β} {as : List α} (each : ∀ a ∈ as, Fails P (f a)) :
    Fails P (as.mapM f) := by
  induction as with
  | nil => exact ok _
  | cons a rest ih =>
      rw [List.mapM_cons]
      refine bind (each a List.mem_cons_self) fun b _ => ?_
      exact bind (ih fun a mem => each a (List.mem_cons_of_mem _ mem)) fun _ _ => ok _

/-- What has no error to fail with does not fail. -/
theorem exists_ok {x : Except NodeError α} (never : Fails (fun _ => False) x) :
    ∃ a, x = .ok a := by
  cases x with
  | error e => exact (never e rfl).elim
  | ok a => exact ⟨a, rfl⟩

theorem never {x : Except NodeError α} (never : Fails (fun _ => False) x) : Fails P x :=
  never.imp fun _ => False.elim

end Fails

namespace NodeError

/-- The outside world has failed. -/
def IsExternal (e : NodeError) : Prop := ∃ fault, e = .external fault

/-- If the error is a query error, one of the templates raises it. -/
def BlamedOn (templates : List String) (scope : Scope) (e : NodeError) : Prop :=
  ∀ fault, e = .ofQuery fault → ∃ text ∈ templates,
    Template.render text scope = .error fault ∨ Template.renderValue text scope = .error fault

variable {templates : List String} {scope : Scope}

theorem blamedOn_configuration (fault : SetupFault) :
    BlamedOn templates scope (.configuration fault) := nofun

theorem blamedOn_notJson : BlamedOn templates scope (.evaluation .notJson) := nofun

theorem blamedOn_xml (fault : XmlFault) : BlamedOn templates scope (.evaluation (.xml fault)) :=
  nofun

theorem IsExternal.blamedOn {e : NodeError} (external : e.IsExternal) :
    e.BlamedOn templates scope := by
  obtain ⟨fault, rfl⟩ := external
  nofun

theorem BlamedOn.mono {e : NodeError} {more : List String} (blamed : e.BlamedOn templates scope)
    (subset : templates ⊆ more) : e.BlamedOn more scope := by
  intro fault same
  obtain ⟨text, mem, raises⟩ := blamed fault same
  exact ⟨text, subset mem, raises⟩

end NodeError

open NodeError (IsExternal BlamedOn)

/-! ## Plans -/

/-- A plan that fails only with errors that have the property before it calls a service, and only
because of the outside world behind the call. -/
def Plan.FailsEarly (P : NodeError → Prop) : Plan → Prop
  | .done outcome => Fails P outcome
  | .http _ finish => ∀ reply, Fails IsExternal (finish reply)
  | .exec _ finish => ∀ reply, Fails IsExternal (finish reply)
  | .query _ finish => ∀ reply, Fails IsExternal (finish reply)

namespace Plan

variable {P Q : NodeError → Prop} {plan : Plan}

theorem FailsEarly.imp (early : plan.FailsEarly P) (weaker : ∀ e, P e → Q e) :
    plan.FailsEarly Q := by
  cases plan with
  | done outcome => exact Fails.imp early weaker
  | http | exec | query => exact early

/-- Making a plan fails only with errors that have the property, and so does the plan. -/
def Making (P : NodeError → Prop) (x : Except NodeError Plan) : Prop :=
  Fails P x ∧ Yields (FailsEarly P) x

namespace Making

variable {α : Type}

theorem made (early : plan.FailsEarly P) : Making P (.ok plan) := ⟨.ok plan, .ok early⟩

theorem bind {x : Except NodeError α} {k : α → Except NodeError Plan} (first : Fails P x)
    (rest : ∀ a, Making P (k a)) : Making P (x >>= k) :=
  ⟨.bind first fun a _ => (rest a).1, .bind fun a => (rest a).2⟩

theorem guard {c : Prop} [Decidable c] {e : NodeError} {k : PUnit → Except NodeError Plan}
    (holds : P e) (rest : Making P (k ⟨⟩)) : Making P (if c then throw e >>= k else k ⟨⟩) :=
  ⟨.guard holds rest.1, .guard rest.2⟩

theorem failsEarly {x : Except NodeError Plan} (making : Making P x) :
    (orFail x).FailsEarly P := by
  cases x with
  | error e => exact Fails.error (making.1 e rfl)
  | ok plan => exact making.2 plan rfl

end Making

/-- What follows a call. -/
theorem fails_reply {α : Type} {finish : Except String α → Outcome}
    (answered : ∀ a, Fails IsExternal (finish (.ok a)))
    (failed : ∀ reason, Fails IsExternal (finish (.error reason))) (reply : Except String α) :
    Fails IsExternal (finish reply) := by
  cases reply with
  | ok a => exact answered a
  | error reason => exact failed reason

/-- Behind its call a plan fails because of the outside world. -/
theorem FailsEarly.external (early : plan.FailsEarly P) {call : ServiceCall}
    (calls : plan.call? = some call) (treatment : Treatment) (timeoutMs : Nat) :
    Fails IsExternal (plan.outcomeAfter treatment timeoutMs) := by
  unfold outcomeAfter
  split
  · cases plan with
    | done outcome => cases calls
    | http request finish => cases treatment.reply <;> exact early _
    | exec request finish => cases treatment.reply <;> exact early _
    | query q finish => cases treatment.reply <;> exact early _
  · exact .error ⟨_, rfl⟩

/-- A plan without a call fails with errors that have the property. -/
theorem FailsEarly.resume (early : plan.FailsEarly P) (calls : plan.call? = none)
    (reply : ServiceReply) : Fails P (plan.resume reply) := by
  cases plan with
  | done outcome => exact early
  | http | exec | query => cases calls

end Plan

/-! ## Paths that have been validated -/

/-- The text is a path expression. -/
def Path.Readable (text : String) : Prop := ∃ path, read text = .ok path

namespace Path

/-- Blanks around a path expression do not matter. -/
theorem Readable.trim {text : String} (readable : Readable text) :
    Readable (Flowline.trim text) := by
  obtain ⟨path, found⟩ := readable
  have same : body (Flowline.trim text) = body text := by
    unfold body Flowline.trim
    rw [String.toList_ofList, trimChars_trimChars]
  unfold read at found
  unfold Readable read
  rw [same]
  cases steps : readSteps .start 0 (body text) with
  | error fault =>
      rw [steps] at found
      cases found
  | ok steps' =>
      rw [steps] at found
      dsimp only at found ⊢
      split at found
      · cases found
      · exact ⟨_, rfl⟩

theorem Readable.exists_found {text : String} (readable : Readable text) (value : Json) :
    ∃ found, query value text = .ok found := by
  obtain ⟨path, found⟩ := readable
  exact ⟨path.evaluate? value, by rw [query, found]; rfl⟩

theorem Readable.fails {text : String} (readable : Readable text) (value : Json)
    {P : NodeError → Prop} : Fails P ((query value text).mapError .ofQuery) := by
  obtain ⟨found, same⟩ := readable.exists_found value
  rw [same]
  exact .ok found

end Path

theorem validatePath_eq_ok_iff {text : String} :
    validatePath text = .ok () ↔ Path.Readable text := by
  unfold validatePath Path.Readable
  cases Path.read text <;> simp

theorem validatePath?_eq_ok_iff {path : Option String} :
    validatePath? path = .ok () ↔ ∀ text ∈ path, Path.Readable text := by
  cases path with
  | none => simp [validatePath?]
  | some text => simpa [validatePath?] using validatePath_eq_ok_iff

/-- A path that is used is one that is set, without the blanks around it. -/
theorem NodeContext.readable_of_givenPath? {path : Option String} {text : String}
    (valid : validatePath? path = .ok ()) (given : givenPath? path = some text) :
    Path.Readable text := by
  obtain ⟨in_map, -⟩ := Option.filter_eq_some_iff.1 given
  obtain ⟨raw, set, rfl⟩ := Option.map_eq_some_iff.1 in_map
  exact (validatePath?_eq_ok_iff.1 valid raw set).trim

namespace VariableBinding

/-- The target of a binding that is valid is known, and its path is readable. -/
theorem exists_target {b : VariableBinding} (valid : validate? (some b) = .ok ()) :
    (∃ name, b.targetName = .ok name) ∧ ∀ text ∈ b.path, Path.Readable text := by
  have known : ∃ name, b.targetName = .ok name := by
    cases target : b.targetName with
    | error e => simp [validate?, target, Except.map] at valid
    | ok name => exact ⟨name, rfl⟩
  refine ⟨known, validatePath?_eq_ok_iff.1 ?_⟩
  obtain ⟨name, target⟩ := known
  unfold targetName at target
  generalize (if b.name = createNew then _ else _) = chosen at target
  dsimp only at target
  split at target
  · cases target
  · cases path : validatePath? b.path with
    | error e => simp [path, Except.map] at target
    | ok u => rfl

/-- A binding that is valid can always be written. -/
theorem fails_writes {binding : Option VariableBinding} (valid : validate? binding = .ok ())
    (output : Json) {defaultPath : String} (readable : Path.Readable defaultPath)
    {P : NodeError → Prop} : Fails P (writes binding output defaultPath) := by
  cases binding with
  | none => exact .ok _
  | some b =>
      obtain ⟨⟨name, target⟩, path⟩ := exists_target valid
      unfold writes
      dsimp only
      rw [target]
      refine Fails.bind (.ok name) fun _ _ => ?_
      refine Fails.bind (Path.Readable.fails ?_ output) fun _ _ => .ok _
      cases set : b.path with
      | none => exact readable
      | some text => exact path text set

end VariableBinding

theorem Path.readable_responseData : Readable "response.data" :=
  have written : readSteps .start 0 (body "response.data") =
      .ok [.key "response", .key "data"] := by decide +kernel
  ⟨_, read_eq_ok written rfl⟩

theorem Path.readable_stdout : Readable "stdout" :=
  have written : readSteps .start 0 (body "stdout") = .ok [.key "stdout"] := by decide +kernel
  ⟨_, read_eq_ok written rfl⟩

/-! ## Templates -/

/-- The templates of entries. -/
def KeyValue.templates (pairs : List KeyValue) : List String :=
  pairs.flatMap fun kv => [trim kv.key, kv.value]

/-- The templates in the settings of a node, as they are rendered. -/
def NodeConfig.templates : NodeConfig → List String
  | .http c =>
    trim c.url :: KeyValue.templates c.headers ++ KeyValue.templates c.params ++ c.body.toList
  | .command c =>
    c.command :: (NodeContext.givenPath? c.cwd).toList ++ KeyValue.templates c.env
  | .database c => c.query :: c.parameters
  | .format c => [c.template]
  | .conditional c => c.conditions.flatMap fun condition => [condition.field, condition.value]
  | .iterator c => [c.items]
  | .prompt c => [c.prompt]
  | .rss c => [trim c.url]
  | .parser _ | .collector _ | .counter _ | .test _ => []

namespace NodeContext

variable (ctx : NodeContext) {templates : List String} {text : String}

theorem fails_render (mem : text ∈ templates) :
    Fails (BlamedOn templates ctx.scope) (ctx.render text) := by
  unfold render
  cases rendered : Template.render text ctx.scope with
  | ok value => exact .ok value
  | error fault =>
      refine .error fun fault' same => ⟨text, mem, Or.inl ?_⟩
      cases same
      exact rendered

theorem fails_renderValue (mem : text ∈ templates) :
    Fails (BlamedOn templates ctx.scope) (ctx.renderValue text) := by
  unfold renderValue
  cases rendered : Template.renderValue text ctx.scope with
  | ok value => exact .ok value
  | error fault =>
      refine .error fun fault' same => ⟨text, mem, Or.inr ?_⟩
      cases same
      exact rendered

theorem fails_renderPairs {pairs : List KeyValue} (subset : KeyValue.templates pairs ⊆ templates) :
    Fails (BlamedOn templates ctx.scope) (ctx.renderPairs pairs) := by
  refine .mapM fun kv mem => ?_
  have both : [trim kv.key, kv.value] ⊆ templates := fun text part =>
    subset (List.mem_flatMap.2 ⟨kv, List.mem_of_mem_filter mem, part⟩)
  refine .bind (ctx.fails_render (both (by simp))) fun key _ => ?_
  exact .bind (ctx.fails_render (both (by simp))) fun value _ => .ok _

theorem fails_select {path : Option String} (valid : validatePath? path = .ok ())
    {P : NodeError → Prop} : Fails P (ctx.select path) := by
  unfold select
  cases given : givenPath? path with
  | none => exact .ok _
  | some text => exact (readable_of_givenPath? valid given).fails _

end NodeContext

/-! ## Nodes that call services -/

open NodeError (blamedOn_configuration blamedOn_notJson blamedOn_xml)

section

variable {P : NodeError → Prop}

theorem HttpConfig.fails_output {c : HttpConfig}
    (valid : VariableBinding.validate? c.binding = .ok ()) (r : HttpResponse) :
    Fails P (c.output r) :=
  .bind (VariableBinding.fails_writes valid _ Path.readable_responseData) fun _ _ => .ok _

theorem CommandConfig.fails_output {c : CommandConfig}
    (valid : VariableBinding.validate? c.binding = .ok ()) (o : CommandOutput) :
    Fails P (c.output o) := by
  unfold output
  dsimp only
  split
  · exact .bind (VariableBinding.fails_writes valid _ Path.readable_stdout) fun _ _ => .ok _
  · exact .ok _

end

theorem RssConfig.fails_output (c : RssConfig) (r : HttpResponse) :
    Fails IsExternal (c.output r) := by
  unfold output
  refine .guard ⟨_, rfl⟩ (.bind ?_ fun document _ => ?_)
  · cases Xml.read r.body with
    | error fault => exact .error ⟨_, rfl⟩
    | ok value => exact .ok value
  · dsimp only
    split
    · exact .ok _
    · exact .error ⟨_, rfl⟩

theorem PromptConfig.fails_completion (i : Integration) (model : String) (r : HttpResponse) :
    Fails IsExternal (completion i model r) := by
  unfold completion
  refine .guard ⟨_, rfl⟩ ?_
  dsimp only
  split
  · split
    · exact .ok _
    · exact .error ⟨_, rfl⟩
  · exact .error ⟨_, rfl⟩

theorem HttpConfig.failsEarly_plan {c : HttpConfig}
    (valid : VariableBinding.validate? c.binding = .ok ()) (ctx : NodeContext) :
    (c.plan ctx).FailsEarly (BlamedOn (NodeConfig.http c).templates ctx.scope) := by
  have answered (response : HttpResponse) : Fails IsExternal (c.output response) :=
    c.fails_output valid response
  unfold plan
  refine Plan.Making.failsEarly (.guard (blamedOn_configuration _) ?_)
  refine .bind (ctx.fails_render (by simp [NodeConfig.templates])) fun url => ?_
  refine .bind (ctx.fails_renderPairs fun _ mem => ?_) fun headers => ?_
  · simp [NodeConfig.templates, mem]
  refine .bind (ctx.fails_renderPairs fun _ mem => ?_) fun query => ?_
  · simp [NodeConfig.templates, mem]
  dsimp only
  cases body : c.body with
  | none => exact .bind (.ok _) fun _ => .made (Plan.fails_reply answered fun _ => .error ⟨_, rfl⟩)
  | some text =>
      dsimp only
      split
      · exact .bind (.ok _) fun _ => .made (Plan.fails_reply answered fun _ => .error ⟨_, rfl⟩)
      · refine .bind (.map (ctx.fails_render ?_) some) fun _ =>
          .made (Plan.fails_reply answered fun _ => .error ⟨_, rfl⟩)
        simp [NodeConfig.templates, body]

theorem CommandConfig.failsEarly_plan {c : CommandConfig}
    (valid : VariableBinding.validate? c.binding = .ok ()) (ctx : NodeContext) :
    (c.plan ctx).FailsEarly (BlamedOn (NodeConfig.command c).templates ctx.scope) := by
  have answered (output : CommandOutput) : Fails IsExternal (c.output output) :=
    c.fails_output valid output
  have pairs : Fails (BlamedOn (NodeConfig.command c).templates ctx.scope)
      (ctx.renderPairs c.env) :=
    ctx.fails_renderPairs fun _ mem => by simp [NodeConfig.templates, mem]
  unfold plan
  refine Plan.Making.failsEarly (.guard (blamedOn_configuration _) ?_)
  refine .bind (ctx.fails_render (by simp [NodeConfig.templates])) fun command => ?_
  dsimp only
  cases cwd : NodeContext.givenPath? c.cwd with
  | none =>
      exact .bind (.ok _) fun _ => .bind pairs fun _ =>
        .made (Plan.fails_reply answered fun _ => .error ⟨_, rfl⟩)
  | some text =>
      refine .bind (.map (ctx.fails_render ?_) some) fun _ => .bind pairs fun _ =>
        .made (Plan.fails_reply answered fun _ => .error ⟨_, rfl⟩)
      simp [NodeConfig.templates, cwd]

theorem DatabaseConfig.failsEarly_plan (c : DatabaseConfig) (ctx : NodeContext) :
    (c.plan ctx).FailsEarly (BlamedOn (NodeConfig.database c).templates ctx.scope) := by
  unfold plan
  refine Plan.Making.failsEarly (.guard (blamedOn_configuration _) ?_)
  refine .guard (blamedOn_configuration _) (.guard (blamedOn_configuration _) ?_)
  refine .bind (ctx.fails_render (by simp [NodeConfig.templates])) fun sql => ?_
  refine .bind (.mapM fun text mem => ctx.fails_renderValue ?_) fun params => ?_
  · simp [NodeConfig.templates, mem]
  · exact .made (Plan.fails_reply (fun _ => .ok _) fun _ => .error ⟨_, rfl⟩)

theorem RssConfig.failsEarly_plan (c : RssConfig) (ctx : NodeContext) :
    (c.plan ctx).FailsEarly (BlamedOn (NodeConfig.rss c).templates ctx.scope) := by
  unfold plan
  refine Plan.Making.failsEarly (.guard (blamedOn_configuration _) ?_)
  refine .bind (ctx.fails_render (by simp [NodeConfig.templates])) fun url => ?_
  exact .made (Plan.fails_reply c.fails_output fun _ => .error ⟨_, rfl⟩)

theorem PromptConfig.failsEarly_plan (c : PromptConfig) (ctx : NodeContext) :
    (c.plan ctx).FailsEarly (BlamedOn (NodeConfig.prompt c).templates ctx.scope) := by
  have chosen : Fails (BlamedOn (NodeConfig.prompt c).templates ctx.scope)
      (c.integration ctx) := by
    unfold integration
    dsimp only
    split
    · exact .error (blamedOn_configuration _)
    · split
      · exact .ok _
      · exact .error (blamedOn_configuration _)
  unfold plan
  refine Plan.Making.failsEarly (.bind chosen fun i => .guard (blamedOn_configuration _) ?_)
  refine .bind ?_ fun key => .guard (blamedOn_configuration _) ?_
  · cases ctx.directory.decrypt i.apiKey with
    | error reason => exact .error (blamedOn_configuration _)
    | ok key => exact .ok key
  · refine .guard (blamedOn_configuration _) ?_
    refine .bind (ctx.fails_render (by simp [NodeConfig.templates])) fun prompt => ?_
    exact .made (Plan.fails_reply (fails_completion i _) fun _ => .error ⟨_, rfl⟩)

/-! ## Nodes that call nothing -/

theorem ParserConfig.readable_of_validate {c : ParserConfig}
    (valid : (NodeConfig.parser c).validate = .ok ()) :
    Path.Readable c.path ∧ validatePath? c.input = .ok () := by
  simp only [NodeConfig.validate] at valid
  cases path : validatePath c.path with
  | error e =>
      rw [path] at valid
      cases valid
  | ok u =>
      rw [path] at valid
      exact ⟨validatePath_eq_ok_iff.1 path, valid⟩

/-- A parser fails only on a text that is no XML. -/
theorem ParserConfig.fails_outcome {c : ParserConfig}
    (valid : (NodeConfig.parser c).validate = .ok ()) (ctx : NodeContext) :
    Fails (fun e => c.mode = .xml ∧ ∃ fault, e = .evaluation (.xml fault)) (c.outcome ctx) := by
  obtain ⟨path, input⟩ := readable_of_validate valid
  refine .bind ?_ fun source _ => .bind ?_ fun document _ => ?_
  · unfold source
    cases given : NodeContext.givenPath? c.input with
    | none => exact .ok _
    | some text =>
        obtain ⟨found, same⟩ :=
          (NodeContext.readable_of_givenPath? input given).exists_found ctx.scope.data
        simp only [same]
        exact .ok _
  · cases source with
    | str text =>
        cases mode : c.mode with
        | json => exact .ok _
        | xml =>
            unfold document
            dsimp only
            cases Xml.read text with
            | error fault => exact .error ⟨rfl, fault, rfl⟩
            | ok value => exact .ok value
    | null | bool | int | float | arr | obj => cases c.mode <;> exact .ok _
  · exact .bind (path.fails _) fun _ _ => .ok _

theorem FormatConfig.fails_outcome (c : FormatConfig) (ctx : NodeContext) :
    Fails (BlamedOn (NodeConfig.format c).templates ctx.scope) (c.outcome ctx) := by
  refine .bind (ctx.fails_render (by simp [NodeConfig.templates])) fun text _ => ?_
  split
  · exact .ok _
  · split
    · exact .ok _
    · exact .error blamedOn_notJson

theorem ConditionalConfig.fails_firstHolding {ctx : NodeContext} {templates : List String}
    {conditions : List Condition}
    (subset : ∀ c ∈ conditions, c.field ∈ templates ∧ c.value ∈ templates) (index : Nat) :
    Fails (BlamedOn templates ctx.scope) (firstHolding ctx index conditions) := by
  induction conditions generalizing index with
  | nil => exact .ok _
  | cons c rest ih =>
      obtain ⟨field, value⟩ := subset c List.mem_cons_self
      refine .bind (ctx.fails_render field) fun left _ => ?_
      refine .bind (ctx.fails_render value) fun right _ => ?_
      split
      · exact .ok _
      · exact ih (fun c mem => subset c (List.mem_cons_of_mem _ mem)) _

theorem ConditionalConfig.fails_outcome (c : ConditionalConfig) (ctx : NodeContext) :
    Fails (BlamedOn (NodeConfig.conditional c).templates ctx.scope) (c.outcome ctx) := by
  refine .bind (fails_firstHolding (fun condition mem => ?_) 0) fun index _ => .ok _
  have both : [condition.field, condition.value] ⊆ (NodeConfig.conditional c).templates :=
    fun text part => List.mem_flatMap.2 ⟨condition, mem, part⟩
  exact ⟨both (by simp), both (by simp)⟩

/-- An iterator over what comes in does not fail. -/
theorem IteratorConfig.fails_outcome {c : IteratorConfig} (valid : validatePath? c.path = .ok ())
    (ctx : NodeContext) : Fails (fun e => c.mode = .custom ∧
      e.BlamedOn (NodeConfig.iterator c).templates ctx.scope) (c.outcome ctx) := by
  refine .bind ?_ fun items _ => .ok _
  unfold elements
  cases mode : c.mode with
  | input =>
      refine .bind (ctx.fails_select valid) fun selected _ => ?_
      split
      · exact .ok _
      · exact .ok _
  | custom =>
      refine Fails.map (Fails.imp (ctx.fails_render ?_) fun e blamed => ⟨rfl, blamed⟩) _
      simp [NodeConfig.templates]

/-- A collector does not fail. -/
theorem CollectorConfig.fails_outcome {c : CollectorConfig}
    (valid : validatePath? c.path = .ok ()) (ctx : NodeContext) (store : NodeStore) :
    Fails (fun _ => False) (c.outcome ctx store).1 := by
  obtain ⟨selected, same⟩ := (ctx.fails_select valid).exists_ok
  unfold outcome
  rw [same]
  dsimp only
  split
  · exact .ok _
  · exact .ok _

/-- A counter does not fail. -/
theorem CounterConfig.fails_outcome (c : CounterConfig) (ctx : NodeContext) (store : NodeStore) :
    Fails (fun _ => False) (c.outcome ctx store).1 := by
  unfold outcome
  split
  · exact .ok _
  · exact .ok _

/-- An assertion can always be checked. -/
theorem Assertion.fails_verdict {a : Assertion} (valid : validatePath? a.path = .ok ())
    (source : Option Json) : Fails (fun _ => False) (a.verdict source) := by
  cases source with
  | none => exact .ok _
  | some value =>
      refine .bind ?_ fun _ _ => .ok _
      unfold actual
      cases a.kind with
      | status | headers => exact .ok _
      | body =>
          dsimp only
          cases given : NodeContext.givenPath? a.path with
          | none => exact .ok _
          | some text => exact (NodeContext.readable_of_givenPath? valid given).fails _

theorem forM_eq_ok {α : Type} {f : α → Except NodeError Unit} {as : List α}
    (all : as.forM f = .ok ()) : ∀ a ∈ as, f a = .ok () := by
  induction as with
  | nil => simp
  | cons a rest ih =>
      change (f a >>= fun _ => rest.forM f) = .ok () at all
      cases first : f a with
      | error e =>
          rw [first] at all
          cases all
      | ok u =>
          rw [first] at all
          exact List.forall_mem_cons.2 ⟨first, ih all⟩

/-- A test node always has its report. -/
theorem TestConfig.fails_outcome {c : TestConfig} (valid : (NodeConfig.test c).validate = .ok ())
    (ctx : NodeContext) : Fails (fun _ => False) (c.outcome ctx) := by
  refine .bind (.mapM fun a mem => ?_) fun verdicts _ => ?_
  · exact .bind (a.fails_verdict (forM_eq_ok valid a mem) _) fun _ _ => .ok _
  · dsimp only
    split
    · exact .ok _
    · exact .ok _

/-! ## All kinds -/

theorem NodeConfig.failsEarly_plan {config : NodeConfig} (valid : config.validate = .ok ())
    (ctx : NodeContext) (store : NodeStore) :
    (config.plan ctx store).1.FailsEarly (BlamedOn config.templates ctx.scope) := by
  cases config <;> dsimp only [plan]
  case http c =>
    simp only [validate] at valid
    split at valid
    · exact HttpConfig.failsEarly_plan valid ctx
    · cases valid
  case command c => exact CommandConfig.failsEarly_plan valid ctx
  case database c => exact c.failsEarly_plan ctx
  case parser c =>
    refine Fails.imp (ParserConfig.fails_outcome valid ctx) ?_
    rintro _ ⟨-, fault, rfl⟩
    exact blamedOn_xml fault
  case format c => exact c.fails_outcome ctx
  case conditional c => exact c.fails_outcome ctx
  case iterator c => exact Fails.imp (IteratorConfig.fails_outcome valid ctx) fun _ => And.right
  case collector c =>
    simp only [validate] at valid
    split at valid
    · cases valid
    · exact Fails.never (CollectorConfig.fails_outcome valid ctx store)
  case counter c => exact Fails.never (c.fails_outcome ctx store)
  case test c => exact Fails.never (TestConfig.fails_outcome valid ctx)
  case prompt c => exact c.failsEarly_plan ctx
  case rss c => exact c.failsEarly_plan ctx

namespace Node

variable {services : Services} {n : Node} {ctx : NodeContext} {store : NodeStore}

theorem validate_config (valid : n.validate = .ok ()) : n.config.validate = .ok () := by
  unfold validate at valid
  split at valid
  · cases valid
  · exact valid

/-- A node fails early, because it is not valid or because of a template or a setting. -/
theorem failsEarly_plan (n : Node) (ctx : NodeContext) (store : NodeStore) :
    (n.plan ctx store).1.FailsEarly fun e =>
      n.validate = .error e ∨ e.BlamedOn n.config.templates ctx.scope := by
  unfold plan
  cases checked : n.validate with
  | error e => exact Fails.error (Or.inl rfl)
  | ok u =>
      exact (NodeConfig.failsEarly_plan (validate_config checked) ctx store).imp fun _ => Or.inr

theorem execute_eq_of_call {call : ServiceCall} (calls : (n.plan ctx store).1.call? = some call) :
    n.execute services ctx store =
      ((n.plan ctx store).1.outcomeAfter (services.treat call) ctx.timeoutMs, some call,
        (n.plan ctx store).2) := by
  unfold execute
  dsimp only
  rw [calls]

theorem execute_eq_of_no_call (calls : (n.plan ctx store).1.call? = none) :
    n.execute services ctx store =
      ((n.plan ctx store).1.resume (.failed ""), none, (n.plan ctx store).2) := by
  unfold execute
  dsimp only
  rw [calls]

end Node

end Flowline
