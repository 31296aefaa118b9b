import Flowline.Proofs.Node.Faults

/-!
# Nodes that have been validated

Validation reads every path in the settings of a node, so none is refused when the node runs, with
the blanks around it or without.  What refers to the data of a run by such paths alone cannot fail;
what renders templates fails with a query error only if a template raises it.

* `NodeConfig.OnlySelects`: the settings without templates and services.
* `Node.executes_of_validate`: what a node that has been validated comes to.
-/

namespace Flowline

namespace NodeConfig

/-- The settings refer to the data of a run by paths alone, and need neither a service nor a text in
a form of its own. -/
def OnlySelects : NodeConfig → Prop
  | .counter _ | .collector _ | .test _ => True
  | .parser c => c.mode = .json
  | .iterator c => c.mode = .input
  | .http _ | .command _ | .database _ | .format _ | .conditional _ | .prompt _ | .rss _ => False

/-- The path of a binding, or the one that stands for it. -/
def boundPath (binding : Option VariableBinding) (defaultPath : String) : List String :=
  binding.toList.map fun b => b.path.getD defaultPath

/-- The paths in the settings of a node, as they are written. -/
def paths : NodeConfig → List String
  | .http c => boundPath c.binding "response.data"
  | .command c => boundPath c.binding "stdout"
  | .parser c => c.path :: c.input.toList
  | .iterator c => c.path.toList
  | .collector c => c.path.toList
  | .test c => c.assertions.filterMap (·.path)
  | .database _ | .format _ | .conditional _ | .counter _ | .prompt _ | .rss _ => []

variable {config : NodeConfig}

theorem readable_of_mem_boundPath {binding : Option VariableBinding} {defaultPath path : String}
    (valid : VariableBinding.validate? binding = .ok ()) (readable : Path.Readable defaultPath)
    (mem : path ∈ boundPath binding defaultPath) : Path.Readable path := by
  obtain ⟨b, set, rfl⟩ := List.mem_map.1 mem
  obtain rfl := Option.mem_toList.1 set
  obtain ⟨-, readable_path⟩ := VariableBinding.exists_target valid
  cases written : b.path with
  | none => exact readable
  | some text => exact readable_path text written

/-- Every path in the settings can be read. -/
theorem readable_of_mem_paths (valid : config.validate = .ok ()) {path : String}
    (mem : path ∈ config.paths) : Path.Readable path := by
  cases config with
  | http c =>
      simp only [validate] at valid
      split at valid
      · exact readable_of_mem_boundPath valid Path.readable_responseData mem
      · cases valid
  | command c => exact readable_of_mem_boundPath valid Path.readable_stdout mem
  | parser c =>
      obtain ⟨readable, input⟩ := ParserConfig.readable_of_validate valid
      rcases List.mem_cons.1 mem with rfl | set
      · exact readable
      · exact validatePath?_eq_ok_iff.1 input path (Option.mem_toList.1 set)
  | iterator c => exact validatePath?_eq_ok_iff.1 valid path (Option.mem_toList.1 mem)
  | collector c =>
      simp only [validate] at valid
      split at valid
      · cases valid
      · exact validatePath?_eq_ok_iff.1 valid path (Option.mem_toList.1 mem)
  | test c =>
      obtain ⟨a, in_list, set⟩ := List.mem_filterMap.1 mem
      exact validatePath?_eq_ok_iff.1 (forM_eq_ok valid a in_list) path set
  | database | format | conditional | counter | prompt | rss => cases mem

/-- Settings that only select by paths have their outcome at once, and it is no failure. -/
theorem plan_of_onlySelects (valid : config.validate = .ok ()) (selects : config.OnlySelects)
    (ctx : NodeContext) (store : NodeStore) :
    ∃ output, (config.plan ctx store).1 = .done (.ok output) := by
  have done {outcome : Outcome} (never : Fails (fun _ => False) outcome) :
      ∃ output, Plan.done outcome = .done (.ok output) := by
    obtain ⟨output, rfl⟩ := never.exists_ok
    exact ⟨output, rfl⟩
  cases config with
  | counter c => exact done (c.fails_outcome ctx store)
  | collector c =>
      simp only [validate] at valid
      split at valid
      · cases valid
      · exact done (CollectorConfig.fails_outcome valid ctx store)
  | test c => exact done (TestConfig.fails_outcome valid ctx)
  | parser c =>
      have json : c.mode = .json := selects
      refine done (Fails.imp (ParserConfig.fails_outcome valid ctx) fun e fault => ?_)
      simp [json] at fault
  | iterator c =>
      have input : c.mode = .input := selects
      refine done (Fails.imp (IteratorConfig.fails_outcome valid ctx) fun e fault => ?_)
      simp [input] at fault
  | http | command | database | format | conditional | prompt | rss => exact selects.elim

end NodeConfig

namespace Node

variable {n : Node}

theorem plan_of_validate (valid : n.validate = .ok ()) (ctx : NodeContext) (store : NodeStore) :
    n.plan ctx store = n.config.plan ctx store := by
  unfold plan
  rw [valid]

/-- **A node that has been validated runs without the faults that validation is about.**  If it only
selects by paths it has an output in every context; no path in its settings is refused, whether it
is used as it is written or trimmed; and a query error comes from a template that raises it. -/
theorem executes_of_validate (n : Node) (valid : n.validate = .ok ()) (services : Services)
    (ctx : NodeContext) (store : NodeStore) :
    (n.config.OnlySelects → ∃ output, (n.execute services ctx store).1 = .ok output) ∧
    (∀ path ∈ n.config.paths, ∀ value, (∃ found, query value path = .ok found) ∧
      ∃ found, query value (trim path) = .ok found) ∧
    ∀ fault, (n.execute services ctx store).1 = .error (.ofQuery fault) →
      ∃ text ∈ n.config.templates, Template.render text ctx.scope = .error fault ∨
        Template.renderValue text ctx.scope = .error fault := by
  refine ⟨fun selects => ?_, fun path mem value => ?_, fun fault failed => ?_⟩
  · obtain ⟨output, done⟩ :=
      NodeConfig.plan_of_onlySelects (validate_config valid) selects ctx store
    have planned : (n.plan ctx store).1 = .done (.ok output) := by
      rw [plan_of_validate valid]
      exact done
    refine ⟨output, ?_⟩
    rw [execute_eq_of_no_call (by rw [planned]; rfl), planned]
    rfl
  · have readable := NodeConfig.readable_of_mem_paths (validate_config valid) mem
    exact ⟨readable.exists_found value, readable.trim.exists_found value⟩
  · have early : (n.plan ctx store).1.FailsEarly (·.BlamedOn n.config.templates ctx.scope) :=
      (n.failsEarly_plan ctx store).imp fun e cause => cause.resolve_left (by simp [valid])
    cases calls : (n.plan ctx store).1.call? with
    | none =>
        rw [execute_eq_of_no_call calls] at failed
        dsimp only at failed
        exact early.resume calls _ _ failed fault rfl
    | some call =>
        rw [execute_eq_of_call calls] at failed
        dsimp only at failed
        exact (early.external calls _ _ _ failed).blamedOn fault rfl

/-- A check of what came back, with paths that have blanks around them. -/
def checked : Node where
  id := "check"
  config := .test { assertions :=
    [⟨"get", .body, some " .items[0].name ", .equals, .str "a", true⟩,
      ⟨"get", .headers, some "\tcontent-type", .present, .null, false⟩,
      ⟨"get", .body, some "  ", .contains, .str "a", false⟩] }

theorem executes_of_validate_checked :
    let services : Services := ⟨⟨fun _ => false, .ok⟩, fun _ => { reply := .failed "down" }⟩
    let ctx : NodeContext := ⟨"check", .null, [], ⟨.null, []⟩, [], [], 1000, services.directory⟩
    checked.validate = .ok () ∧ checked.config.OnlySelects ∧
    checked.config.paths = [" .items[0].name ", "\tcontent-type", "  "] ∧
    (∃ output, (checked.execute services ctx {}).1 = .ok output) ∧
    ∀ path ∈ checked.config.paths, ∀ value, (∃ found, query value path = .ok found) ∧
      ∃ found, query value (trim path) = .ok found := by
  intro services ctx
  have valid : checked.validate = .ok () := by decide +kernel
  obtain ⟨executes, readable, -⟩ := executes_of_validate checked valid services ctx {}
  exact ⟨valid, trivial, rfl, executes trivial, readable⟩

end Node

end Flowline
