import Flowline.Proofs.Except
import Flowline.Proofs.Node.Propagation
import Flowline.Proofs.Template.Composition
import Flowline.Proofs.Text.Trim

/-!
# Entries and the names that are sent

The headers and parameters of requests and the variables of commands are entries, whose keys and
values are templates.  An entry without a key is left out; but that is decided before the key is
rendered, so a name that is sent can be blank all the same.  It is just if the key fades, that is if
there is nothing in it but blanks and tokens that denote blank texts.

* `Template.fades_iff`: the templates that render to blanks are those that fade.
* `NodeContext.renderPairs_eq_ok_iff`: the pairs are what the entries that count render to.
* `Node.namedBy_plan`: the names that nodes send are blank just if keys fade.
* `NodeContext.renders_entries`: all of it together, and `NodeContext.nameless_header_sent`, a
  header without a name.
-/

namespace Flowline

/-! ## Templates that render to blanks -/

namespace Template

/-- There is nothing in the text but blanks and tokens that denote blank texts. -/
inductive Fades (scope : Scope) : List Char → Prop where
  | nil : Fades scope []
  | blank {c : Char} {rest : List Char} (blank : isBlank c = true) (later : Fades scope rest) :
    Fades scope (c :: rest)
  | token {body after : List Char} {value : Option Json} (free : BraceFree body)
    (denotes : resolve body scope = .ok value) (blank : allBlank (textOf value) = true)
    (later : Fades scope after) : Fades scope (written body ++ after)

variable {scope : Scope} {body text : List Char}

theorem not_opens_of_blank {c : Char} {rest : List Char} (blank : isBlank c = true) :
    ¬ Opens (c :: rest) := by
  rintro ⟨body, after, -, same⟩
  obtain ⟨rfl, -⟩ := List.cons.inj same
  cases blank

theorem render_token (free : BraceFree body) (after : List Char) (scope : Scope) :
    render (String.ofList (written body ++ after)) scope = do
      let value ← resolve body scope
      let last ← render (String.ofList after) scope
      return textOf value ++ last := by
  have parts := render_append free [] after scope
  rw [List.nil_append, render_nil] at parts
  rw [parts]
  simp [bind, Except.bind, pure, Except.pure]

/-- The templates that render to blanks are those that fade. -/
theorem fades_iff (text : List Char) (scope : Scope) :
    Fades scope text ↔
      ∃ rendered, render (String.ofList text) scope = .ok rendered ∧ allBlank rendered = true := by
  constructor
  · intro fades
    induction fades with
    | nil => exact ⟨"", render_nil scope, rfl⟩
    | blank blank _ ih =>
        obtain ⟨rendered, same, all⟩ := ih
        rw [render_cons (not_opens_of_blank blank), same]
        exact ⟨_, rfl, by simp [allBlank_append, allBlank_singleton, blank, all]⟩
    | token free denotes blank _ ih =>
        obtain ⟨rendered, same, all⟩ := ih
        rw [render_token free, denotes, same]
        exact ⟨_, rfl, by simp [allBlank_append, blank, all]⟩
  · rintro ⟨rendered, same, all⟩
    induction text using induction_on_tokens generalizing rendered with
    | nil => exact .nil
    | token body after free ih =>
        rw [render_token free] at same
        obtain ⟨value, denotes, same⟩ := bind_eq_ok same
        obtain ⟨last, later, same⟩ := bind_eq_ok same
        cases same
        rw [allBlank_append, Bool.and_eq_true] at all
        exact .token free denotes all.1 (ih last later all.2)
    | char c rest closed ih =>
        rw [render_cons closed] at same
        obtain ⟨last, later, rfl⟩ := map_eq_ok same
        rw [allBlank_append, allBlank_singleton, Bool.and_eq_true] at all
        exact .blank all.1 (ih last later all.2)

/-- What fades is blank already, or has a token. -/
theorem Fades.blank_or_token (fades : Fades scope text) :
    (∀ c ∈ text, isBlank c = true) ∨
      ∃ before body after, BraceFree body ∧ text = before ++ (written body ++ after) := by
  induction fades with
  | nil => exact .inl nofun
  | blank blank _ ih =>
      rcases ih with all | ⟨before, body, after, free, rfl⟩
      · exact .inl (List.forall_mem_cons.2 ⟨blank, all⟩)
      · exact .inr ⟨_ :: before, body, after, free, rfl⟩
  | token free _ _ _ _ => exact .inr ⟨[], _, _, free, rfl⟩

end Template

/-! ## Entries -/

namespace KeyValue

/-- The entry is enabled and has a key. -/
def Counts (kv : KeyValue) : Prop := kv.enabled = true ∧ allBlank kv.key = false

instance : DecidablePred Counts := fun _ => inferInstanceAs (Decidable (_ ∧ _))

/-- The key of the entry, without the blanks around it, fades. -/
def Fades (kv : KeyValue) (scope : Scope) : Prop := Template.Fades scope (trim kv.key).toList

/-- A key that counts fades by a token. -/
theorem Counts.exists_token {kv : KeyValue} {scope : Scope} (counts : kv.Counts)
    (fades : kv.Fades scope) :
    ∃ before body after, Template.BraceFree body ∧
      (trim kv.key).toList = before ++ (Template.written body ++ after) := by
  refine fades.blank_or_token.resolve_left fun all => ?_
  have gone : trim kv.key = "" := by
    rw [← trim_trim, trim_eq_empty_iff, allBlank_iff]
    exact all
  rw [trim_eq_empty_iff, counts.2] at gone
  cases gone

end KeyValue

namespace NodeContext

/-- The entry renders to the pair, its key without the blanks around it. -/
structure RendersTo (ctx : NodeContext) (kv : KeyValue) (pair : String × String) : Prop where
  name : Template.render (trim kv.key) ctx.scope = .ok pair.1
  value : Template.render kv.value ctx.scope = .ok pair.2

variable {ctx : NodeContext} {kv : KeyValue} {pair : String × String}

theorem render_eq_ok_iff {text rendered : String} :
    ctx.render text = .ok rendered ↔ Template.render text ctx.scope = .ok rendered := by
  unfold render
  cases Template.render text ctx.scope <;> simp [Except.mapError]

theorem rendersTo_iff :
    ctx.RendersTo kv pair ↔
      (do return (← ctx.render (trim kv.key), ← ctx.render kv.value)) = Except.ok pair := by
  constructor
  · rintro ⟨name, value⟩
    rw [render_eq_ok_iff.2 name, render_eq_ok_iff.2 value]
    rfl
  · intro rendered
    obtain ⟨name, name_eq, rendered⟩ := bind_eq_ok rendered
    obtain ⟨value, value_eq, rendered⟩ := bind_eq_ok rendered
    cases rendered
    exact ⟨render_eq_ok_iff.1 name_eq, render_eq_ok_iff.1 value_eq⟩

/-- The pairs are what the entries that count render to, in the same order. -/
theorem renderPairs_eq_ok_iff {entries : List KeyValue} {pairs : List (String × String)} :
    ctx.renderPairs entries = .ok pairs ↔
      List.Forall₂ ctx.RendersTo (entries.filter fun kv => kv.Counts) pairs := by
  have kept : (fun kv : KeyValue => kv.enabled && trim kv.key != "") = fun kv => kv.Counts := by
    funext kv
    have blank : (trim kv.key != "") = !allBlank kv.key := by
      rw [Bool.eq_iff_iff]
      simp [trim_eq_empty_iff]
    rw [blank, Bool.eq_iff_iff, decide_eq_true_iff]
    simp [KeyValue.Counts]
  rw [renderPairs, kept, mapM_eq_ok_iff]
  exact ⟨.imp fun _ _ => rendersTo_iff.2, .imp fun _ _ => rendersTo_iff.1⟩

/-- A name is blank just if the key fades that renders to it. -/
theorem RendersTo.nameless_iff (renders : ctx.RendersTo kv pair) :
    allBlank pair.1 = true ↔ kv.Fades ctx.scope := by
  rw [KeyValue.Fades, Template.fades_iff, String.ofList_toList, renders.name]
  simp

/-- One of the names is blank just if the key of an entry that counts fades. -/
theorem exists_nameless_iff {entries : List KeyValue} {pairs : List (String × String)}
    (rendered : ctx.renderPairs entries = .ok pairs) :
    (∃ name ∈ pairs.map (·.1), allBlank name = true) ↔
      ∃ kv ∈ entries, kv.Counts ∧ kv.Fades ctx.scope := by
  have counting : (∃ kv ∈ entries, kv.Counts ∧ kv.Fades ctx.scope) ↔
      ∃ kv ∈ entries.filter fun kv => kv.Counts, kv.Fades ctx.scope := by
    simp [and_assoc]
  have renders := renderPairs_eq_ok_iff.1 rendered
  rw [counting]
  generalize (entries.filter fun kv => kv.Counts) = those at renders
  clear counting rendered
  induction renders with
  | nil => simp
  | cons first _ ih =>
      simp only [List.map_cons, List.mem_cons, exists_eq_or_imp, ih, first.nameless_iff]

end NodeContext

/-! ## What is sent -/

namespace Plan

/-- The call of the plan, if it makes one, has the property. -/
def Calls (P : ServiceCall → Prop) (plan : Plan) : Prop := ∀ call, plan.call? = some call → P call

variable {P : ServiceCall → Prop}

theorem calls_orFail {x : Except NodeError Plan} (yields : Yields (Calls P) x) :
    (orFail x).Calls P := by
  cases x with
  | error e => exact nofun
  | ok plan => exact yields plan rfl

theorem calls_of_call? {plan : Plan} {call : ServiceCall} (calls : plan.call? = some call)
    (holds : P call) : plan.Calls P := by
  intro other same
  obtain rfl := Option.some.inj (calls.symm.trans same)
  exact holds

end Plan

/-- The names that go out with a call, of headers, parameters and variables. -/
def ServiceCall.names : ServiceCall → List String
  | .http request => request.headers.map (·.1) ++ request.query.map (·.1)
  | .exec request => request.env.map (·.1)
  | .query _ => []

/-- The entries in the settings of a node. -/
def NodeConfig.entries : NodeConfig → List KeyValue
  | .http c => c.headers ++ c.params
  | .command c => c.env
  | _ => []

/-- A name of the call is blank just if the key of one of the entries that count fades. -/
def ServiceCall.NamedBy (entries : List KeyValue) (scope : Scope) (call : ServiceCall) : Prop :=
  (∃ name ∈ call.names, allBlank name = true) ↔ ∃ kv ∈ entries, kv.Counts ∧ kv.Fades scope

theorem namedBy_of_filled {scope : Scope} {call : ServiceCall}
    (filled : ∀ name ∈ call.names, allBlank name = false) : call.NamedBy [] scope := by
  refine iff_of_false ?_ (by simp)
  rintro ⟨name, mem, blank⟩
  rw [filled name mem] at blank
  cases blank

theorem HttpConfig.blank_withContentType (headers : List (String × String)) (body : Option String) :
    (∃ name ∈ (withContentType headers body).map (·.1), allBlank name = true) ↔
      ∃ name ∈ headers.map (·.1), allBlank name = true := by
  have declared : allBlank "Content-Type" = false := by decide +kernel
  unfold withContentType
  dsimp only
  split
  · split
    · simp [or_and_right, exists_or, declared]
    · rfl
  · rfl

theorem HttpConfig.namedBy_plan (c : HttpConfig) (ctx : NodeContext) :
    (c.plan ctx).Calls (ServiceCall.NamedBy (NodeConfig.http c).entries ctx.scope) := by
  have sends {request : HttpRequest} {headers : List (String × String)}
      (rendered : ctx.renderPairs c.headers = .ok headers)
      (same : request.headers = withContentType headers request.body)
      (asked : ctx.renderPairs c.params = .ok request.query) :
      (ServiceCall.http request).NamedBy (NodeConfig.http c).entries ctx.scope := by
    simp only [ServiceCall.NamedBy, ServiceCall.names, NodeConfig.entries, List.mem_append,
      or_and_right, exists_or, same, blank_withContentType,
      NodeContext.exists_nameless_iff rendered, NodeContext.exists_nameless_iff asked]
  refine Plan.calls_orFail (.guard (.bind fun url => ?_))
  refine .bind_ok fun headers rendered => .bind_ok fun query asked => ?_
  dsimp only
  -- the body, which may be blank or missing, only decides on the content type
  split
  · split
    · exact .bind fun _ => .ok (Plan.calls_of_call? rfl (sends rendered rfl asked))
    · exact .bind fun _ => .ok (Plan.calls_of_call? rfl (sends rendered rfl asked))
  · exact .bind fun _ => .ok (Plan.calls_of_call? rfl (sends rendered rfl asked))

theorem CommandConfig.namedBy_plan (c : CommandConfig) (ctx : NodeContext) :
    (c.plan ctx).Calls (ServiceCall.NamedBy (NodeConfig.command c).entries ctx.scope) := by
  refine Plan.calls_orFail (.guard (.bind fun command => ?_))
  dsimp only
  split
  · exact .bind fun _ => .bind_ok fun _ rendered =>
      .ok (Plan.calls_of_call? rfl (NodeContext.exists_nameless_iff rendered))
  · exact .bind fun _ => .bind_ok fun _ rendered =>
      .ok (Plan.calls_of_call? rfl (NodeContext.exists_nameless_iff rendered))

theorem DatabaseConfig.namedBy_plan (c : DatabaseConfig) (ctx : NodeContext) :
    (c.plan ctx).Calls (ServiceCall.NamedBy [] ctx.scope) :=
  Plan.calls_orFail (.guard (.guard (.guard (.bind fun _ => .bind fun _ => .ok
    (Plan.calls_of_call? rfl (namedBy_of_filled nofun))))))

theorem RssConfig.namedBy_plan (c : RssConfig) (ctx : NodeContext) :
    (c.plan ctx).Calls (ServiceCall.NamedBy [] ctx.scope) := by
  refine Plan.calls_orFail (.guard (.bind fun _ => .ok ?_))
  refine Plan.calls_of_call? rfl (namedBy_of_filled ?_)
  simp only [ServiceCall.names, List.map_cons, List.map_nil, List.append_nil,
    List.forall_mem_cons]
  exact ⟨by decide +kernel, nofun⟩

theorem PromptConfig.namedBy_plan (c : PromptConfig) (ctx : NodeContext) :
    (c.plan ctx).Calls (ServiceCall.NamedBy [] ctx.scope) := by
  have filled (i : Integration) (key model prompt : String) :
      ∀ name ∈ (ServiceCall.http (c.request ctx i key model prompt)).names,
        allBlank name = false := by
    cases provider : i.provider <;>
      simp only [request, provider, Provider.keyHeaders, ServiceCall.names, List.cons_append,
        List.nil_append, List.map_cons, List.map_nil, List.append_nil, List.forall_mem_cons]
    · exact ⟨by decide +kernel, by decide +kernel, nofun⟩
    · exact ⟨by decide +kernel, by decide +kernel, by decide +kernel, nofun⟩
  exact Plan.calls_orFail (.bind fun i => .guard (.bind fun _ => .guard (.guard (.bind fun _ => .ok
    (Plan.calls_of_call? rfl (namedBy_of_filled (filled i _ _ _)))))))

theorem NodeConfig.namedBy_plan (config : NodeConfig) (ctx : NodeContext) (store : NodeStore) :
    (config.plan ctx store).1.Calls (ServiceCall.NamedBy config.entries ctx.scope) := by
  cases config <;> dsimp only [plan]
  case http c => exact c.namedBy_plan ctx
  case command c => exact c.namedBy_plan ctx
  case database c => exact c.namedBy_plan ctx
  case prompt c => exact c.namedBy_plan ctx
  case rss c => exact c.namedBy_plan ctx
  all_goals exact nofun

theorem Node.namedBy_plan (n : Node) (ctx : NodeContext) (store : NodeStore) :
    (n.plan ctx store).1.Calls (ServiceCall.NamedBy n.config.entries ctx.scope) := by
  unfold plan
  split
  · exact n.config.namedBy_plan ctx store
  · exact nofun

/-! ## The whole -/

namespace NodeContext

/-- How entries are rendered and sent. -/
structure RendersEntries (ctx : NodeContext) : Prop where
  /-- The pairs are what the entries that count render to, in the same order. -/
  gives : ∀ entries pairs, ctx.renderPairs entries = .ok pairs ↔
    List.Forall₂ ctx.RendersTo (entries.filter fun kv => kv.Counts) pairs
  /-- A name is blank just if the key that renders to it fades. -/
  nameless : ∀ kv pair, ctx.RendersTo kv pair → (allBlank pair.1 = true ↔ kv.Fades ctx.scope)
  /-- No name is blank just if none of the keys that count fades. -/
  named : ∀ entries pairs, ctx.renderPairs entries = .ok pairs →
    ((∀ pair ∈ pairs, allBlank pair.1 = false) ↔
      ∀ kv ∈ entries, kv.Counts → ¬ kv.Fades ctx.scope)
  /-- A key without a token does not fade. -/
  token : ∀ kv : KeyValue, kv.Counts → kv.Fades ctx.scope →
    ∃ before body after, Template.BraceFree body ∧
      (trim kv.key).toList = before ++ (Template.written body ++ after)
  /-- The same goes for the names of all headers, parameters and variables that any node sends. -/
  sends : ∀ (n : Node) store call, (n.plan ctx store).1.call? = some call →
    ((∃ name ∈ call.names, allBlank name = true) ↔
      ∃ kv ∈ n.config.entries, kv.Counts ∧ kv.Fades ctx.scope)

/-- **Entries that count are rendered in order, with the name that their key renders to**, and this
name is blank, here and in what is sent, just if there is nothing in the key but blanks and tokens
that denote blank texts. -/
theorem renders_entries (ctx : NodeContext) : ctx.RendersEntries := by
  refine ⟨fun _ _ => renderPairs_eq_ok_iff, fun _ _ => RendersTo.nameless_iff,
    fun entries pairs rendered => ?named, fun _ => KeyValue.Counts.exists_token,
    fun n store => n.namedBy_plan ctx store⟩
  case named =>
    have some_nameless := not_congr (exists_nameless_iff rendered)
    simpa using some_nameless

/-- A run with a blank variable and without outputs. -/
def bare : NodeContext where
  nodeId := "ask"
  input := .obj []
  sources := []
  scope := { data := .obj [], env := [("BLANK", " ")] }
  integrations := []
  previous := []
  timeoutMs := 1000
  directory := { hasConnection := fun _ => false, decrypt := fun _ => .error "" }

/-- A header whose key is a token. -/
def tokenHeader (body : String) : KeyValue := { key := Template.tokenOf body, value := "v" }

/-- A request with a header. -/
def asking (header : KeyValue) : Node where
  id := "ask"
  config := .http { url := "http://x", headers := [header] }

/-- Of four headers two count, and the key of one of these fades by a variable that is blank: the
request is sent with a name that is blank. -/
theorem renders_entries_blank :
    let headers : List KeyValue := [
      tokenHeader "$BLANK", { key := "X-" ++ Template.tokenOf "a.b" },
      { key := "X", enabled := false }, { key := " " }]
    bare.renderPairs headers = .ok [(" ", "v"), ("X-", "")] ∧
      List.Forall₂ bare.RendersTo (headers.filter fun kv => kv.Counts) [(" ", "v"), ("X-", "")] ∧
      (¬ ∀ kv ∈ headers, kv.Counts → ¬ kv.Fades bare.scope) ∧
      ∃ call, ((asking (tokenHeader "$BLANK")).plan bare ⟨[]⟩).1.call? = some call ∧
        (tokenHeader "$BLANK").Fades bare.scope ∧ ∃ name ∈ call.names, allBlank name = true := by
  intro headers
  have rendered : bare.renderPairs headers = .ok [(" ", "v"), ("X-", "")] := by cbv
  have counts : (tokenHeader "$BLANK").Counts := by decide +kernel
  have fades : (tokenHeader "$BLANK").Fades bare.scope := by
    refine ((renders_entries bare).nameless _ (" ", "v") ⟨?_, ?_⟩).1 (by decide +kernel)
    · cbv
    · cbv
  refine ⟨rendered, ((renders_entries bare).gives _ _).1 rendered, fun none_fades => ?_, ?_⟩
  · exact none_fades _ List.mem_cons_self counts fades
  · obtain ⟨request, calls⟩ : ∃ request,
        ((asking (tokenHeader "$BLANK")).plan bare ⟨[]⟩).1.call? = some (.http request) :=
      ⟨_, by cbv⟩
    exact ⟨_, calls, fades, ((renders_entries bare).sends _ _ _ calls).2
      ⟨_, List.mem_cons_self, counts, fades⟩⟩

/-- The key of a header is a variable that is not set: the header counts, since its key is not
empty, but it is rendered and sent with an empty name. -/
theorem nameless_header_sent :
    (tokenHeader "$NOPE").Counts ∧
      bare.renderPairs [tokenHeader "$NOPE"] = .ok [("", "v")] ∧
      ∃ request, ((asking (tokenHeader "$NOPE")).plan bare ⟨[]⟩).1.call? = some (.http request) ∧
        request.headers = [("", "v")] :=
  ⟨by decide +kernel, by cbv, _, by cbv, rfl⟩

end NodeContext

end Flowline
