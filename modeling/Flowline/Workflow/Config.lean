import Flowline.Json.Basic

/-!
# What a node is set up to do

There are twelve kinds of node, and `NodeConfig` has the settings of each.
-/

namespace Flowline

/-- The kinds of node. -/
inductive NodeKind where
  | http
  | command
  | database
  | parser
  | format
  | conditional
  | iterator
  | collector
  | counter
  | test
  | prompt
  | rss
deriving DecidableEq

namespace NodeKind

/-- The name of a kind. -/
def name : NodeKind → String
  | http => "http"
  | command => "command"
  | database => "database"
  | parser => "parser"
  | format => "format"
  | conditional => "conditional"
  | iterator => "iterator"
  | collector => "collector"
  | counter => "counter"
  | test => "test"
  | prompt => "prompt"
  | rss => "rss"

/-- What generated ids of nodes of this kind begin with. -/
def idStem : NodeKind → String
  | http => "HTTP"
  | command => "COMMAND"
  | database => "DATABASE"
  | parser => "PARSER"
  | format => "FORMAT"
  | conditional => "CONDITIONAL"
  | iterator => "ITERATOR"
  | collector => "COLLECTOR"
  | counter => "COUNTER"
  | test => "TEST"
  | prompt => "PROMPT"
  | rss => "RSS"

/-- All kinds. -/
def all : List NodeKind :=
  [http, command, database, parser, format, conditional, iterator, collector, counter, test,
    prompt, rss]

/-- Nodes of this kind call on the outside world, and so run under a time limit. -/
def callsOut : NodeKind → Bool
  | http | command | database | prompt | rss => true
  | _ => false

end NodeKind

/-- A header, query parameter or environment entry. -/
structure KeyValue where
  key : String
  value : String := ""
  enabled : Bool := true

/-- Where a node writes part of its output: an existing variable, or a new one. -/
structure VariableBinding where
  name : String
  newName : Option String := none
  path : Option String := none

/-- An HTTP request. -/
structure HttpConfig where
  url : String := ""
  method : String := "GET"
  headers : List KeyValue := []
  params : List KeyValue := []
  body : Option String := none
  timeoutMs : Option Nat := none
  binding : Option VariableBinding := none

/-- A shell command. -/
structure CommandConfig where
  command : String := ""
  cwd : Option String := none
  timeoutMs : Option Nat := none
  env : List KeyValue := []
  binding : Option VariableBinding := none

/-- An SQL query on a named connection; the parameters are templates. -/
structure DatabaseConfig where
  connectionId : String := ""
  query : String := ""
  parameters : List String := []
  timeoutMs : Option Nat := none

/-- The form of text that a parser node reads. -/
inductive ParserMode where
  | json
  | xml
deriving DecidableEq

/-- Takes a part out of the data that comes in. -/
structure ParserConfig where
  mode : ParserMode := .json
  path : String := ""
  input : Option String := none

/-- What a format node makes of its rendered template. -/
inductive FormatMode where
  | text
  | json
deriving DecidableEq

/-- Renders a template. -/
structure FormatConfig where
  mode : FormatMode := .text
  template : String := ""

/-- The comparisons of a condition. -/
inductive CompareOp where
  | eq
  | ne
  | ge
  | le
  | contains
deriving DecidableEq

/-- A condition; both operands are templates. -/
structure Condition where
  field : String
  operator : CompareOp
  value : String := ""

/-- Goes on along the branch of the first condition that holds. -/
structure ConditionalConfig where
  conditions : List Condition := []

/-- Where an iterator takes its items from: what comes in, or its own list. -/
inductive IteratorMode where
  | input
  | custom
deriving DecidableEq

/-- Runs the nodes that depend on it once for each item. -/
structure IteratorConfig where
  mode : IteratorMode := .input
  path : Option String := none
  items : String := ""

/-- Collects values over executions. -/
structure CollectorConfig where
  path : Option String := none
  makeUnique : Bool := false
  batch : Bool := false
  batchSize : Nat := 0

/-- Lets a number of executions through. -/
structure CounterConfig where
  limit : Nat := 0

/-- The part of a result that an assertion looks at. -/
inductive AssertionKind where
  | status
  | headers
  | body
deriving DecidableEq

/-- The comparisons of an assertion. -/
inductive AssertionOp where
  | equals
  | notEquals
  | contains
  | greaterThan
  | lessThan
  | present
deriving DecidableEq

/-- A check of the last result of a node. -/
structure Assertion where
  sourceNodeId : String
  kind : AssertionKind
  path : Option String := none
  operator : AssertionOp
  expected : Json := .null
  stopOnFailure : Bool := false

/-- Checks assertions. -/
structure TestConfig where
  assertions : List Assertion := []

/-- A request to a language model. -/
structure PromptConfig where
  integrationId : String := ""
  prompt : String := ""
  model : Option String := none
  maxTokens : Option Nat := none
  timeoutMs : Option Nat := none

/-- The direction of a sorting. -/
inductive SortDirection where
  | asc
  | desc
deriving DecidableEq

/-- Reads an RSS or Atom feed. -/
structure RssConfig where
  url : String := ""
  maxItems : Option Nat := none
  sortField : Option String := none
  sortDirection : SortDirection := .desc
  timeoutMs : Option Nat := none

/-- The settings of a node. -/
inductive NodeConfig where
  | http (c : HttpConfig)
  | command (c : CommandConfig)
  | database (c : DatabaseConfig)
  | parser (c : ParserConfig)
  | format (c : FormatConfig)
  | conditional (c : ConditionalConfig)
  | iterator (c : IteratorConfig)
  | collector (c : CollectorConfig)
  | counter (c : CounterConfig)
  | test (c : TestConfig)
  | prompt (c : PromptConfig)
  | rss (c : RssConfig)

namespace NodeConfig

/-- The kind of node that the settings are for. -/
def kind : NodeConfig → NodeKind
  | http _ => .http
  | command _ => .command
  | database _ => .database
  | parser _ => .parser
  | format _ => .format
  | conditional _ => .conditional
  | iterator _ => .iterator
  | collector _ => .collector
  | counter _ => .counter
  | test _ => .test
  | prompt _ => .prompt
  | rss _ => .rss

/-- The time limit that the node asks for, in milliseconds. -/
def timeoutMs? : NodeConfig → Option Nat
  | http c => c.timeoutMs
  | command c => c.timeoutMs
  | database c => c.timeoutMs
  | prompt c => c.timeoutMs
  | rss c => c.timeoutMs
  | _ => none

end NodeConfig

end Flowline
