import Flowline.Json.Decode
import Flowline.Json.Encode
import Flowline.Workflow.Basic

/-!
# The written form of workflows

For every record of a workflow a decoder and, under the same names of the fields, an encoder.
Fields that hold nothing are not written.
-/

namespace Flowline

/-- Whole numbers of 64 bits. -/
def Decoder.word : Decoder Nat := Decoder.nat maxWord64

open Decoder Fields

namespace NodeKind

/-- The kinds by name. -/
def byName : List (String × NodeKind) := all.map fun k => (k.name, k)

def decode : Decoder NodeKind := variant byName

def encode (k : NodeKind) : Json := .str k.name

end NodeKind

namespace KeyValue

def decode : Decoder KeyValue := record <|
  KeyValue.mk <$> required "key" string <*> withDefault "value" string "" <*>
    withDefault "enabled" bool true

def encode (kv : KeyValue) : Json :=
  .obj [("key", .str kv.key), ("value", .str kv.value), ("enabled", .bool kv.enabled)]

end KeyValue

namespace VariableBinding

def decode : Decoder VariableBinding := record <|
  VariableBinding.mk <$> required "name" string <*> Fields.optional "newName" string <*>
    Fields.optional "path" string

def encode (b : VariableBinding) : Json :=
  .obj <| ("name", .str b.name) :: Json.optional "newName" .str b.newName ++
    Json.optional "path" .str b.path

end VariableBinding

namespace HttpConfig

def decode : Decoder HttpConfig := record <|
  HttpConfig.mk <$> withDefault "url" string "" <*> withDefault "method" string "GET" <*>
    withDefault "headers" (list KeyValue.decode) [] <*>
    withDefault "params" (list KeyValue.decode) [] <*> Fields.optional "body" string <*>
    Fields.optional "timeoutMs" word <*> Fields.optional "variable" VariableBinding.decode

def members (c : HttpConfig) : List (String × Json) :=
  [("url", .str c.url), ("method", .str c.method),
    ("headers", .ofList KeyValue.encode c.headers),
    ("params", .ofList KeyValue.encode c.params)] ++ Json.optional "body" .str c.body ++
    Json.optional "timeoutMs" .ofNat c.timeoutMs ++
    Json.optional "variable" VariableBinding.encode c.binding

end HttpConfig

namespace CommandConfig

def decode : Decoder CommandConfig := record <|
  CommandConfig.mk <$> withDefault "command" string "" <*> Fields.optional "cwd" string <*>
    Fields.optional "timeoutMs" word <*> withDefault "env" (list KeyValue.decode) [] <*>
    Fields.optional "variable" VariableBinding.decode

def members (c : CommandConfig) : List (String × Json) :=
  ("command", .str c.command) :: Json.optional "cwd" .str c.cwd ++
    Json.optional "timeoutMs" .ofNat c.timeoutMs ++
    ("env", .ofList KeyValue.encode c.env) ::
    Json.optional "variable" VariableBinding.encode c.binding

end CommandConfig

namespace DatabaseConfig

def decode : Decoder DatabaseConfig := record <|
  DatabaseConfig.mk <$> withDefault "connectionId" string "" <*> withDefault "query" string "" <*>
    withDefault "parameters" (list string) [] <*> Fields.optional "timeoutMs" word

def members (c : DatabaseConfig) : List (String × Json) :=
  [("connectionId", .str c.connectionId), ("query", .str c.query),
    ("parameters", .ofList .str c.parameters)] ++ Json.optional "timeoutMs" .ofNat c.timeoutMs

end DatabaseConfig

namespace ParserConfig

/-- The modes by name. -/
def modes : List (String × ParserMode) := [("json", .json), ("xml", .xml)]

def decode : Decoder ParserConfig := record <|
  ParserConfig.mk <$> withDefault "mode" (variant modes) .json <*> withDefault "path" string "" <*>
    Fields.optional "input" string

def members (c : ParserConfig) : List (String × Json) :=
  [("mode", .ofName modes c.mode), ("path", .str c.path)] ++ Json.optional "input" .str c.input

end ParserConfig

namespace FormatConfig

/-- The modes by name. -/
def modes : List (String × FormatMode) := [("text", .text), ("json", .json)]

def decode : Decoder FormatConfig := record <|
  FormatConfig.mk <$> withDefault "mode" (variant modes) .text <*>
    withDefault "template" string ""

def members (c : FormatConfig) : List (String × Json) :=
  [("mode", .ofName modes c.mode), ("template", .str c.template)]

end FormatConfig

namespace CompareOp

/-- The operators by name; the first name of each is the written one. -/
def byName : List (String × CompareOp) :=
  [("==", .eq), ("equals", .eq), ("!=", .ne), ("notEquals", .ne), (">=", .ge), ("<=", .le),
    ("contains", .contains)]

def decode : Decoder CompareOp := variant byName

def encode (op : CompareOp) : Json := .ofName byName op

end CompareOp

namespace Condition

def decode : Decoder Condition := record <|
  Condition.mk <$> required "field" string <*> required "operator" CompareOp.decode <*>
    withDefault "value" string ""

def encode (c : Condition) : Json :=
  .obj [("field", .str c.field), ("operator", c.operator.encode), ("value", .str c.value)]

end Condition

namespace ConditionalConfig

def decode : Decoder ConditionalConfig := record <|
  ConditionalConfig.mk <$> withDefault "conditions" (list Condition.decode) []

def members (c : ConditionalConfig) : List (String × Json) :=
  [("conditions", .ofList Condition.encode c.conditions)]

end ConditionalConfig

namespace IteratorConfig

/-- The modes by name. -/
def modes : List (String × IteratorMode) := [("input", .input), ("custom", .custom)]

def decode : Decoder IteratorConfig := record <|
  IteratorConfig.mk <$> withDefault "mode" (variant modes) .input <*>
    Fields.optional "path" string <*> withDefault "items" string ""

def members (c : IteratorConfig) : List (String × Json) :=
  ("mode", .ofName modes c.mode) :: Json.optional "path" .str c.path ++ [("items", .str c.items)]

end IteratorConfig

namespace CollectorConfig

def decode : Decoder CollectorConfig := record <|
  CollectorConfig.mk <$> Fields.optional "path" string <*> withDefault "makeUnique" bool false <*>
    withDefault "batch" bool false <*> withDefault "batchSize" word 0

def members (c : CollectorConfig) : List (String × Json) :=
  Json.optional "path" .str c.path ++ [("makeUnique", .bool c.makeUnique),
    ("batch", .bool c.batch), ("batchSize", .ofNat c.batchSize)]

end CollectorConfig

namespace CounterConfig

def decode : Decoder CounterConfig := record <| CounterConfig.mk <$> withDefault "limit" word 0

def members (c : CounterConfig) : List (String × Json) := [("limit", .ofNat c.limit)]

end CounterConfig

namespace Assertion

/-- The kinds by name. -/
def kinds : List (String × AssertionKind) :=
  [("status", .status), ("headers", .headers), ("body", .body)]

/-- The operators by name. -/
def operators : List (String × AssertionOp) :=
  [("equals", .equals), ("notEquals", .notEquals), ("contains", .contains),
    ("greaterThan", .greaterThan), ("lessThan", .lessThan), ("exists", .present)]

def decode : Decoder Assertion := record <|
  Assertion.mk <$> required "sourceNodeId" string <*> required "type" (variant kinds) <*>
    Fields.optional "path" string <*> required "operator" (variant operators) <*>
    withDefault "expected" value .null <*> withDefault "stopOnFailure" bool false

def encode (a : Assertion) : Json :=
  .obj <| [("sourceNodeId", .str a.sourceNodeId), ("type", .ofName kinds a.kind)] ++
    Json.optional "path" .str a.path ++ [("operator", .ofName operators a.operator),
    ("expected", a.expected), ("stopOnFailure", .bool a.stopOnFailure)]

end Assertion

namespace TestConfig

def decode : Decoder TestConfig := record <|
  TestConfig.mk <$> withDefault "assertions" (list Assertion.decode) []

def members (c : TestConfig) : List (String × Json) :=
  [("assertions", .ofList Assertion.encode c.assertions)]

end TestConfig

namespace PromptConfig

def decode : Decoder PromptConfig := record <|
  PromptConfig.mk <$> withDefault "integrationId" string "" <*> withDefault "prompt" string "" <*>
    Fields.optional "model" string <*> Fields.optional "maxTokens" (nat maxWord32) <*>
    Fields.optional "timeoutMs" word

def members (c : PromptConfig) : List (String × Json) :=
  [("integrationId", .str c.integrationId), ("prompt", .str c.prompt)] ++
    Json.optional "model" .str c.model ++ Json.optional "maxTokens" .ofNat c.maxTokens ++
    Json.optional "timeoutMs" .ofNat c.timeoutMs

end PromptConfig

namespace RssConfig

/-- The directions by name. -/
def directions : List (String × SortDirection) := [("asc", .asc), ("desc", .desc)]

def decode : Decoder RssConfig := record <|
  RssConfig.mk <$> withDefault "url" string "" <*> Fields.optional "maxItems" word <*>
    Fields.optional "sortField" string <*>
    withDefault "sortDirection" (variant directions) .desc <*> Fields.optional "timeoutMs" word

def members (c : RssConfig) : List (String × Json) :=
  ("url", .str c.url) :: Json.optional "maxItems" .ofNat c.maxItems ++
    Json.optional "sortField" .str c.sortField ++
    ("sortDirection", .ofName directions c.sortDirection) ::
    Json.optional "timeoutMs" .ofNat c.timeoutMs

end RssConfig

namespace NodeConfig

/-- The decoders of the settings, by kind of node. -/
def decoders : List (String × Decoder NodeConfig) :=
  [("http", http <$> HttpConfig.decode), ("command", command <$> CommandConfig.decode),
    ("database", database <$> DatabaseConfig.decode), ("parser", parser <$> ParserConfig.decode),
    ("format", format <$> FormatConfig.decode),
    ("conditional", conditional <$> ConditionalConfig.decode),
    ("iterator", iterator <$> IteratorConfig.decode),
    ("collector", collector <$> CollectorConfig.decode),
    ("counter", counter <$> CounterConfig.decode), ("test", test <$> TestConfig.decode),
    ("prompt", prompt <$> PromptConfig.decode), ("rss", rss <$> RssConfig.decode)]

def decode : Decoder NodeConfig := tagged "type" decoders

/-- The settings without their kind. -/
def members : NodeConfig → List (String × Json)
  | http c => c.members
  | command c => c.members
  | database c => c.members
  | parser c => c.members
  | format c => c.members
  | conditional c => c.members
  | iterator c => c.members
  | collector c => c.members
  | counter c => c.members
  | test c => c.members
  | prompt c => c.members
  | rss c => c.members

def encode (c : NodeConfig) : Json := .obj (("type", c.kind.encode) :: c.members)

end NodeConfig

namespace Position

def decode : Decoder Position := record <|
  Position.mk <$> required "x" double <*> required "y" double

def encode (p : Position) : Json := .obj [("x", .float p.x), ("y", .float p.y)]

end Position

namespace LastResult

def decode : Decoder LastResult := record <|
  LastResult.mk <$> required "timestamp" instant <*> required "payload" value

def encode (r : LastResult) : Json :=
  .obj [("timestamp", .str r.timestamp.text), ("payload", r.payload)]

end LastResult

namespace NodeState

def decode : Decoder NodeState := record <|
  NodeState.mk <$> Fields.optional "result" LastResult.decode <*> Fields.optional "error" string

def encode (s : NodeState) : Json :=
  .obj <| Json.optional "result" LastResult.encode s.result ++ Json.optional "error" .str s.error

end NodeState

namespace Node

def decode : Decoder Node := record <|
  Node.mk <$> required "id" string <*> required "config" NodeConfig.decode <*>
    withDefault "position" Position.decode {} <*> withDefault "state" NodeState.decode {} <*>
    withDefault "continueOnFailure" bool false

def encode (n : Node) : Json :=
  .obj [("id", .str n.id), ("config", n.config.encode), ("position", n.position.encode),
    ("state", n.state.encode), ("continueOnFailure", .bool n.continueOnFailure)]

end Node

namespace EdgeData

def decode : Decoder EdgeData := record <|
  EdgeData.mk <$> Fields.optional "positionHandlers" value <*> Fields.optional "branch" word

def encode (d : EdgeData) : Json :=
  .obj <| Json.optional "positionHandlers" id d.positionHandlers ++
    Json.optional "branch" .ofNat d.branch

end EdgeData

namespace Edge

def decode : Decoder Edge := record <|
  Edge.mk <$> withDefault "id" string "" <*> required "source" string <*>
    required "target" string <*> Fields.optional "data" EdgeData.decode

def encode (e : Edge) : Json :=
  .obj <| [("id", .str e.id), ("source", .str e.source), ("target", .str e.target)] ++
    Json.optional "data" EdgeData.encode e.data

end Edge

namespace Workflow

def decode : Decoder Workflow := record <|
  Workflow.mk <$> withDefault "id" string "" <*> withDefault "name" string "" <*>
    withDefault "nodes" (list Node.decode) [] <*> withDefault "edges" (list Edge.decode) []

def encode (w : Workflow) : Json :=
  .obj [("id", .str w.id), ("name", .str w.name), ("nodes", .ofList Node.encode w.nodes),
    ("edges", .ofList Edge.encode w.edges)]

end Workflow

namespace Environment

def decode : Decoder Environment := record <|
  Environment.mk <$> withDefault "id" string "" <*> withDefault "name" string "" <*>
    withDefault "variables" (dictionary string) []

end Environment

namespace Integration

/-- The providers by name. -/
def providers : List (String × Provider) := [("openai", .openAi), ("anthropic", .anthropic)]

def decode : Decoder Integration := record <|
  Integration.mk <$> required "id" string <*> required "provider" (variant providers) <*>
    withDefault "model" string "" <*> Fields.optional "baseUrl" string <*>
    withDefault "apiKey" string ""

end Integration

end Flowline
