import Flowline.Document.Edit
import Flowline.Proofs.Json.Recovery

/-!
# Workflows and commands read back

For every record of a workflow the decoder recovers what the encoder writes of it, from the
innermost records outwards. Each proof takes the fields of one record in their order: what was
given for the field, and that the field finds it in the written members.

* `NodeConfig.recovers`: the settings of each of the twelve kinds of node.
* `Workflow.recovers`, `EditCommand.recovers`: whole workflows and commands.
* `decode_encode_of_decode`: what has been read from any value is read again, unchanged, from what
  is written for it.
-/

namespace Flowline

open Decoder Fields

/-! ## Values that may be missing -/

theorem present_string : string.Present .str := present_of_ne_null fun _ => nofun

theorem present_nat (limit : Nat) : (nat limit).Present .ofNat := present_of_ne_null fun _ => nofun

theorem recovers_word : word.Recovers .ofNat := recovers_nat maxWord64

theorem present_word : word.Present .ofNat := present_nat maxWord64

/-! ## The settings of nodes -/

theorem KeyValue.recovers : KeyValue.decode.Recovers KeyValue.encode := by
  refine recovers_record fun kept => gives_seq <| gives_seq <| gives_map
    fun key key_given value value_given enabled enabled_given => ?_
  have key_found := recovers_required recovers_string key_given
  have value_found := recovers_withDefault recovers_string (fun _ => rfl) value_given
  have enabled_found := recovers_withDefault recovers_bool (fun _ => rfl) enabled_given
  exact key_found (by simp) |>.map _ |>.seq (value_found (by simp)) |>.seq
    (enabled_found (by simp))

theorem VariableBinding.recovers : VariableBinding.decode.Recovers VariableBinding.encode := by
  refine recovers_record fun kept => gives_seq <| gives_seq <| gives_map
    fun name name_given newName newName_given path path_given => ?_
  have name_found := recovers_required recovers_string name_given
  have newName_found := recovers_optional recovers_string present_string newName_given
  have path_found := recovers_optional recovers_string present_string path_given
  exact name_found (by simp) |>.map _ |>.seq (newName_found (by simp)) |>.seq
    (path_found (by simp))

theorem VariableBinding.present : VariableBinding.decode.Present VariableBinding.encode :=
  present_of_ne_null fun _ => nofun

theorem HttpConfig.recovers : HttpConfig.decode.Recovers fun c => .obj c.members := by
  refine recovers_record fun kept => gives_seq <| gives_seq <| gives_seq <| gives_seq <|
    gives_seq <| gives_seq <| gives_map fun url url_given method method_given headers headers_given
      params params_given body body_given timeoutMs timeoutMs_given binding binding_given => ?_
  have url_found := recovers_withDefault recovers_string (fun _ => rfl) url_given
  have method_found := recovers_withDefault recovers_string (fun _ => rfl) method_given
  have headers_found := recovers_withDefault (recovers_list KeyValue.recovers) (fun _ => rfl)
    headers_given
  have params_found := recovers_withDefault (recovers_list KeyValue.recovers) (fun _ => rfl)
    params_given
  have body_found := recovers_optional recovers_string present_string body_given
  have timeoutMs_found := recovers_optional recovers_word present_word timeoutMs_given
  have binding_found := recovers_optional VariableBinding.recovers VariableBinding.present
    binding_given
  exact url_found (by simp [members]) |>.map _ |>.seq (method_found (by simp [members])) |>.seq
    (headers_found (by simp [members])) |>.seq (params_found (by simp [members])) |>.seq
    (body_found (by simp [members])) |>.seq (timeoutMs_found (by simp [members])) |>.seq
    (binding_found (by simp [members]))

theorem CommandConfig.recovers : CommandConfig.decode.Recovers fun c => .obj c.members := by
  refine recovers_record fun kept => gives_seq <| gives_seq <| gives_seq <| gives_seq <|
    gives_map fun command command_given cwd cwd_given timeoutMs timeoutMs_given env env_given
      binding binding_given => ?_
  have command_found := recovers_withDefault recovers_string (fun _ => rfl) command_given
  have cwd_found := recovers_optional recovers_string present_string cwd_given
  have timeoutMs_found := recovers_optional recovers_word present_word timeoutMs_given
  have env_found := recovers_withDefault (recovers_list KeyValue.recovers) (fun _ => rfl) env_given
  have binding_found := recovers_optional VariableBinding.recovers VariableBinding.present
    binding_given
  exact command_found (by simp [members]) |>.map _ |>.seq (cwd_found (by simp [members])) |>.seq
    (timeoutMs_found (by simp [members])) |>.seq (env_found (by simp [members])) |>.seq
    (binding_found (by simp [members]))

theorem DatabaseConfig.recovers : DatabaseConfig.decode.Recovers fun c => .obj c.members := by
  refine recovers_record fun kept => gives_seq <| gives_seq <| gives_seq <| gives_map
    fun connectionId connectionId_given query query_given parameters parameters_given
      timeoutMs timeoutMs_given => ?_
  have connectionId_found := recovers_withDefault recovers_string (fun _ => rfl) connectionId_given
  have query_found := recovers_withDefault recovers_string (fun _ => rfl) query_given
  have parameters_found := recovers_withDefault (recovers_list recovers_string) (fun _ => rfl)
    parameters_given
  have timeoutMs_found := recovers_optional recovers_word present_word timeoutMs_given
  exact connectionId_found (by simp [members]) |>.map _ |>.seq
    (query_found (by simp [members])) |>.seq (parameters_found (by simp [members])) |>.seq
    (timeoutMs_found (by simp [members]))

theorem ParserConfig.recovers : ParserConfig.decode.Recovers fun c => .obj c.members := by
  refine recovers_record fun kept => gives_seq <| gives_seq <| gives_map
    fun mode mode_given path path_given input input_given => ?_
  have mode_found := recovers_withDefault (recovers_variant (by decide)) (fun _ => rfl) mode_given
  have path_found := recovers_withDefault recovers_string (fun _ => rfl) path_given
  have input_found := recovers_optional recovers_string present_string input_given
  exact mode_found (by simp [members]) |>.map _ |>.seq (path_found (by simp [members])) |>.seq
    (input_found (by simp [members]))

theorem FormatConfig.recovers : FormatConfig.decode.Recovers fun c => .obj c.members := by
  refine recovers_record fun kept => gives_seq <| gives_map
    fun mode mode_given template template_given => ?_
  have mode_found := recovers_withDefault (recovers_variant (by decide)) (fun _ => rfl) mode_given
  have template_found := recovers_withDefault recovers_string (fun _ => rfl) template_given
  exact mode_found (by simp [members]) |>.map _ |>.seq (template_found (by simp [members]))

theorem Condition.recovers : Condition.decode.Recovers Condition.encode := by
  refine recovers_record fun kept => gives_seq <| gives_seq <| gives_map
    fun field field_given operator operator_given value value_given => ?_
  have field_found := recovers_required recovers_string field_given
  have operator_found := recovers_required (recovers_variant (by decide)) operator_given
  have value_found := recovers_withDefault recovers_string (fun _ => rfl) value_given
  exact field_found (by simp) |>.map _ |>.seq (operator_found (by simp [CompareOp.encode])) |>.seq
    (value_found (by simp))

theorem ConditionalConfig.recovers :
    ConditionalConfig.decode.Recovers fun c => .obj c.members := by
  refine recovers_record fun kept => gives_map fun conditions conditions_given => ?_
  have conditions_found := recovers_withDefault (recovers_list Condition.recovers) (fun _ => rfl)
    conditions_given
  exact conditions_found (by simp [members]) |>.map _

theorem IteratorConfig.recovers : IteratorConfig.decode.Recovers fun c => .obj c.members := by
  refine recovers_record fun kept => gives_seq <| gives_seq <| gives_map
    fun mode mode_given path path_given items items_given => ?_
  have mode_found := recovers_withDefault (recovers_variant (by decide)) (fun _ => rfl) mode_given
  have path_found := recovers_optional recovers_string present_string path_given
  have items_found := recovers_withDefault recovers_string (fun _ => rfl) items_given
  exact mode_found (by simp [members]) |>.map _ |>.seq (path_found (by simp [members])) |>.seq
    (items_found (by simp [members]))

theorem CollectorConfig.recovers : CollectorConfig.decode.Recovers fun c => .obj c.members := by
  refine recovers_record fun kept => gives_seq <| gives_seq <| gives_seq <| gives_map
    fun path path_given makeUnique makeUnique_given batch batch_given
      batchSize batchSize_given => ?_
  have path_found := recovers_optional recovers_string present_string path_given
  have makeUnique_found := recovers_withDefault recovers_bool (fun _ => rfl) makeUnique_given
  have batch_found := recovers_withDefault recovers_bool (fun _ => rfl) batch_given
  have batchSize_found := recovers_withDefault recovers_word (fun _ => rfl) batchSize_given
  exact path_found (by simp [members]) |>.map _ |>.seq (makeUnique_found (by simp [members])) |>.seq
    (batch_found (by simp [members])) |>.seq (batchSize_found (by simp [members]))

theorem CounterConfig.recovers : CounterConfig.decode.Recovers fun c => .obj c.members := by
  refine recovers_record fun kept => gives_map fun limit limit_given => ?_
  have limit_found := recovers_withDefault recovers_word (fun _ => rfl) limit_given
  exact limit_found (by simp [members]) |>.map _

theorem Assertion.recovers : Assertion.decode.Recovers Assertion.encode := by
  refine recovers_record fun kept => gives_seq <| gives_seq <| gives_seq <| gives_seq <|
    gives_seq <| gives_map fun sourceNodeId sourceNodeId_given kind kind_given path path_given
      operator operator_given expected expected_given stopOnFailure stopOnFailure_given => ?_
  have sourceNodeId_found := recovers_required recovers_string sourceNodeId_given
  have kind_found := recovers_required (recovers_variant (by decide)) kind_given
  have path_found := recovers_optional recovers_string present_string path_given
  have operator_found := recovers_required (recovers_variant (by decide)) operator_given
  have expected_found := recovers_withDefault recovers_value decode_value_null expected_given
  have stopOnFailure_found := recovers_withDefault recovers_bool (fun _ => rfl) stopOnFailure_given
  exact sourceNodeId_found (by simp) |>.map _ |>.seq (kind_found (by simp)) |>.seq
    (path_found (by simp)) |>.seq (operator_found (by simp)) |>.seq
    (expected_found (by simp)) |>.seq (stopOnFailure_found (by simp))

theorem TestConfig.recovers : TestConfig.decode.Recovers fun c => .obj c.members := by
  refine recovers_record fun kept => gives_map fun assertions assertions_given => ?_
  have assertions_found := recovers_withDefault (recovers_list Assertion.recovers) (fun _ => rfl)
    assertions_given
  exact assertions_found (by simp [members]) |>.map _

theorem PromptConfig.recovers : PromptConfig.decode.Recovers fun c => .obj c.members := by
  refine recovers_record fun kept => gives_seq <| gives_seq <| gives_seq <| gives_seq <| gives_map
    fun integrationId integrationId_given prompt prompt_given model model_given
      maxTokens maxTokens_given timeoutMs timeoutMs_given => ?_
  have integrationId_found := recovers_withDefault recovers_string (fun _ => rfl)
    integrationId_given
  have prompt_found := recovers_withDefault recovers_string (fun _ => rfl) prompt_given
  have model_found := recovers_optional recovers_string present_string model_given
  have maxTokens_found := recovers_optional (recovers_nat maxWord32) (present_nat maxWord32)
    maxTokens_given
  have timeoutMs_found := recovers_optional recovers_word present_word timeoutMs_given
  exact integrationId_found (by simp [members]) |>.map _ |>.seq
    (prompt_found (by simp [members])) |>.seq (model_found (by simp [members])) |>.seq
    (maxTokens_found (by simp [members])) |>.seq (timeoutMs_found (by simp [members]))

theorem RssConfig.recovers : RssConfig.decode.Recovers fun c => .obj c.members := by
  refine recovers_record fun kept => gives_seq <| gives_seq <| gives_seq <| gives_seq <| gives_map
    fun url url_given maxItems maxItems_given sortField sortField_given
      sortDirection sortDirection_given timeoutMs timeoutMs_given => ?_
  have url_found := recovers_withDefault recovers_string (fun _ => rfl) url_given
  have maxItems_found := recovers_optional recovers_word present_word maxItems_given
  have sortField_found := recovers_optional recovers_string present_string sortField_given
  have sortDirection_found := recovers_withDefault (recovers_variant (by decide)) (fun _ => rfl)
    sortDirection_given
  have timeoutMs_found := recovers_optional recovers_word present_word timeoutMs_given
  exact url_found (by simp [members]) |>.map _ |>.seq (maxItems_found (by simp [members])) |>.seq
    (sortField_found (by simp [members])) |>.seq (sortDirection_found (by simp [members])) |>.seq
    (timeoutMs_found (by simp [members]))

/-- No settings are written under the name that the kind stands under. -/
theorem NodeConfig.untagged (c : NodeConfig) : Entries.valuesOf "type" c.members = [] := by
  cases c <;>
    simp [members, HttpConfig.members, CommandConfig.members, DatabaseConfig.members,
      ParserConfig.members, FormatConfig.members, ConditionalConfig.members, IteratorConfig.members,
      CollectorConfig.members, CounterConfig.members, TestConfig.members, PromptConfig.members,
      RssConfig.members]

theorem NodeConfig.recovers : NodeConfig.decode.Recovers NodeConfig.encode := by
  refine recovers_tagged (by decide) ?_
  simp only [decoders, List.forall_mem_cons]
  exact ⟨recoversKind_map HttpConfig.recovers (fun _ => rfl) fun c => untagged (http c),
    recoversKind_map CommandConfig.recovers (fun _ => rfl) fun c => untagged (command c),
    recoversKind_map DatabaseConfig.recovers (fun _ => rfl) fun c => untagged (database c),
    recoversKind_map ParserConfig.recovers (fun _ => rfl) fun c => untagged (parser c),
    recoversKind_map FormatConfig.recovers (fun _ => rfl) fun c => untagged (format c),
    recoversKind_map ConditionalConfig.recovers (fun _ => rfl) fun c => untagged (conditional c),
    recoversKind_map IteratorConfig.recovers (fun _ => rfl) fun c => untagged (iterator c),
    recoversKind_map CollectorConfig.recovers (fun _ => rfl) fun c => untagged (collector c),
    recoversKind_map CounterConfig.recovers (fun _ => rfl) fun c => untagged (counter c),
    recoversKind_map TestConfig.recovers (fun _ => rfl) fun c => untagged (test c),
    recoversKind_map PromptConfig.recovers (fun _ => rfl) fun c => untagged (prompt c),
    recoversKind_map RssConfig.recovers (fun _ => rfl) fun c => untagged (rss c), nofun⟩

/-! ## Nodes, edges and workflows -/

theorem Position.recovers : Position.decode.Recovers Position.encode := by
  refine recovers_record fun kept => gives_seq <| gives_map fun x x_given y y_given => ?_
  have x_found := recovers_required recovers_double x_given
  have y_found := recovers_required recovers_double y_given
  exact x_found (by simp) |>.map _ |>.seq (y_found (by simp))

theorem LastResult.recovers : LastResult.decode.Recovers LastResult.encode := by
  refine recovers_record fun kept => gives_seq <| gives_map
    fun timestamp timestamp_given payload payload_given => ?_
  have timestamp_found := recovers_required recovers_instant timestamp_given
  have payload_found := recovers_required recovers_value payload_given
  exact timestamp_found (by simp) |>.map _ |>.seq (payload_found (by simp))

theorem NodeState.recovers : NodeState.decode.Recovers NodeState.encode := by
  refine recovers_record fun kept => gives_seq <| gives_map
    fun result result_given error error_given => ?_
  have result_found := recovers_optional LastResult.recovers (present_of_ne_null fun _ => nofun)
    result_given
  have error_found := recovers_optional recovers_string present_string error_given
  exact result_found (by simp) |>.map _ |>.seq (error_found (by simp))

theorem Node.recovers : Node.decode.Recovers Node.encode := by
  refine recovers_record fun kept => gives_seq <| gives_seq <| gives_seq <| gives_seq <| gives_map
    fun id id_given config config_given position position_given state state_given
      continueOnFailure continueOnFailure_given => ?_
  have id_found := recovers_required recovers_string id_given
  have config_found := recovers_required NodeConfig.recovers config_given
  have position_found := recovers_withDefault Position.recovers (fun _ => rfl) position_given
  have state_found := recovers_withDefault NodeState.recovers (fun _ => rfl) state_given
  have continueOnFailure_found := recovers_withDefault recovers_bool (fun _ => rfl)
    continueOnFailure_given
  exact id_found (by simp) |>.map _ |>.seq (config_found (by simp)) |>.seq
    (position_found (by simp)) |>.seq (state_found (by simp)) |>.seq
    (continueOnFailure_found (by simp))

theorem EdgeData.recovers : EdgeData.decode.Recovers EdgeData.encode := by
  refine recovers_record fun kept => gives_seq <| gives_map
    fun positionHandlers positionHandlers_given branch branch_given => ?_
  have positionHandlers_found := recovers_optional recovers_value present_value
    positionHandlers_given
  have branch_found := recovers_optional recovers_word present_word branch_given
  exact positionHandlers_found (by simp) |>.map _ |>.seq (branch_found (by simp))

theorem Edge.recovers : Edge.decode.Recovers Edge.encode := by
  refine recovers_record fun kept => gives_seq <| gives_seq <| gives_seq <| gives_map
    fun id id_given source source_given target target_given data data_given => ?_
  have id_found := recovers_withDefault recovers_string (fun _ => rfl) id_given
  have source_found := recovers_required recovers_string source_given
  have target_found := recovers_required recovers_string target_given
  have data_found := recovers_optional EdgeData.recovers (present_of_ne_null fun _ => nofun)
    data_given
  exact id_found (by simp) |>.map _ |>.seq (source_found (by simp)) |>.seq
    (target_found (by simp)) |>.seq (data_found (by simp))

theorem Workflow.recovers : Workflow.decode.Recovers Workflow.encode := by
  refine recovers_record fun kept => gives_seq <| gives_seq <| gives_seq <| gives_map
    fun id id_given name name_given nodes nodes_given edges edges_given => ?_
  have id_found := recovers_withDefault recovers_string (fun _ => rfl) id_given
  have name_found := recovers_withDefault recovers_string (fun _ => rfl) name_given
  have nodes_found := recovers_withDefault (recovers_list Node.recovers) (fun _ => rfl) nodes_given
  have edges_found := recovers_withDefault (recovers_list Edge.recovers) (fun _ => rfl) edges_given
  exact id_found (by simp) |>.map _ |>.seq (name_found (by simp)) |>.seq
    (nodes_found (by simp)) |>.seq (edges_found (by simp))

/-! ## Commands -/

theorem EditCommand.recovers : EditCommand.decode.Recovers EditCommand.encode := by
  refine recovers_tagged (by decide) ?_
  simp only [decoders, List.forall_mem_cons]
  refine ⟨?addNode, ?removeNode, ?moveNode, ?updateNode, ?addEdge, ?removeEdge, nofun⟩
  case addNode =>
    refine recoversKind_record <| gives_map fun node given => ?_
    exact ⟨[("node", node.encode)], rfl, by simp,
      recovers_required Node.recovers given (by simp) |>.map _⟩
  case removeNode =>
    refine recoversKind_record <| gives_map fun id given => ?_
    exact ⟨[("id", .str id)], rfl, by simp,
      recovers_required recovers_string given (by simp) |>.map _⟩
  case moveNode =>
    refine recoversKind_record <| gives_seq <| gives_map
      fun id id_given position position_given => ?_
    have id_found := recovers_required recovers_string id_given
    have position_found := recovers_required Position.recovers position_given
    exact ⟨[("id", .str id), ("position", position.encode)], rfl, by simp,
      id_found (by simp) |>.map _ |>.seq (position_found (by simp))⟩
  case updateNode =>
    refine recoversKind_record <| gives_map fun node given => ?_
    exact ⟨[("node", node.encode)], rfl, by simp,
      recovers_required Node.recovers given (by simp) |>.map _⟩
  case addEdge =>
    refine recoversKind_record <| gives_map fun edge given => ?_
    exact ⟨[("edge", edge.encode)], rfl, by simp,
      recovers_required Edge.recovers given (by simp) |>.map _⟩
  case removeEdge =>
    refine recoversKind_record <| gives_map fun id given => ?_
    exact ⟨[("id", .str id)], rfl, by simp,
      recovers_required recovers_string given (by simp) |>.map _⟩

/-! ## Reading and writing -/

/-- Whatever has been read as a workflow or as a command is read again, unchanged, from what is
written for it, and so is written in the same way again. -/
theorem decode_encode_of_decode :
    (∀ v w, Workflow.decode v = .ok w →
      Workflow.decode w.encode = .ok w ∧
        (Workflow.decode w.encode).map Workflow.encode = .ok w.encode) ∧
    ∀ v c, EditCommand.decode v = .ok c →
      EditCommand.decode c.encode = .ok c ∧
        (EditCommand.decode c.encode).map EditCommand.encode = .ok c.encode := by
  constructor
  · intro v w read
    have again := Workflow.recovers false v w read
    exact ⟨again, by rw [again]; rfl⟩
  · intro v c read
    have again := EditCommand.recovers false v c read
    exact ⟨again, by rw [again]; rfl⟩

/-- A workflow with records as arrays, members in another order, another name for an operator, and
a leap second that falls on the next day, a leap day, in universal time. -/
def terseWorkflow : Json :=
  .arr [.str "w", .str "plan",
    .arr [.arr [.str "a", .arr [.str "conditional",
        .arr [.arr [.str "\x7b\x7bx\x7d\x7d", .str "equals", .str "1"]]],
        .arr [.int 3, .int 4],
        .arr [.arr [.str "2024-2-28 23:59:60.5-00:30", .obj [("k", .null)]]]],
      .obj [("config", .obj [("mode", .str "xml"), ("type", .str "parser")]), ("id", .str "b")]],
    .arr [.obj [("source", .str "a"), ("target", .str "b"),
      ("data", .arr [.obj [("source", .str "right")], .int 1])]]]

/-- What is read from it. -/
def plainWorkflow : Workflow where
  id := "w"
  name := "plan"
  nodes := [
    { id := "a"
      config := .conditional ⟨[⟨"\x7b\x7bx\x7d\x7d", .eq, "1"⟩]⟩
      position := ⟨Double.ofInt 3, Double.ofInt 4⟩
      state := ⟨some ⟨⟨19782, 1799, 1500000000⟩, .obj [("k", .null)]⟩, none⟩ },
    { id := "b", config := .parser { mode := .xml } }]
  edges := [
    { source := "a", target := "b", data := some ⟨some (.obj [("source", .str "right")]), some 1⟩ }]

set_option maxRecDepth 20000 in
theorem decode_terseWorkflow : Workflow.decode terseWorkflow = .ok plainWorkflow := rfl

/-- A command whose edge is an array without the data. -/
def terseCommand : Json := .arr [.str "addEdge", .arr [.str "e", .str "a", .str "b"]]

/-- What is read from it. -/
def plainCommand : EditCommand := .addEdge { id := "e", source := "a", target := "b" }

theorem decode_encode_terse :
    Workflow.decode terseWorkflow = .ok plainWorkflow ∧
      Workflow.decode plainWorkflow.encode = .ok plainWorkflow ∧
      EditCommand.decode terseCommand = .ok plainCommand ∧
      EditCommand.decode plainCommand.encode = .ok plainCommand :=
  ⟨decode_terseWorkflow,
    (decode_encode_of_decode.1 terseWorkflow plainWorkflow decode_terseWorkflow).1, rfl,
    (decode_encode_of_decode.2 terseCommand plainCommand rfl).1⟩

end Flowline
