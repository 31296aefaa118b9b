import Flowline.Calendar.Basic
import Flowline.Workflow.Config

/-!
# Workflows

A workflow is a list of nodes and a list of edges. The order of both matters: roots run in the
order of the nodes, and the branches of a condition are counted in the order of the edges.
-/

namespace Flowline

/-- A place on the canvas. -/
structure Position where
  x : Double := .zero false
  y : Double := .zero false
deriving DecidableEq

/-- The value that a node produced last, and when. -/
structure LastResult where
  timestamp : Instant
  payload : Json

/-- What runs have left at a node. -/
structure NodeState where
  result : Option LastResult := none
  error : Option String := none

/-- A unit of work. -/
structure Node where
  id : String
  config : NodeConfig
  position : Position := {}
  state : NodeState := {}
  continueOnFailure : Bool := false

/-- The kind of the node. -/
def Node.kind (n : Node) : NodeKind := n.config.kind

/-- What an edge carries besides its ends: the layout of the editor, and the number of the
condition that it belongs to. -/
structure EdgeData where
  positionHandlers : Option Json := none
  branch : Option Nat := none

/-- A directed link between two nodes. -/
structure Edge where
  id : String := ""
  source : String
  target : String
  data : Option EdgeData := none

namespace Edge

/-- The condition that the edge belongs to. -/
def branch? (e : Edge) : Option Nat := e.data.bind (·.branch)

/-- The edge as one that belongs to a condition. -/
def withBranch (e : Edge) (branch : Nat) : Edge :=
  { e with data := some { e.data.getD {} with branch := some branch } }

/-- The edge has the node at one of its ends. -/
def touches (e : Edge) (id : String) : Bool := e.source == id || e.target == id

end Edge

/-- A graph of nodes. -/
structure Workflow where
  id : String := ""
  name : String := ""
  nodes : List Node := []
  edges : List Edge := []

namespace Workflow

/-- The first node with an id. -/
def node? (w : Workflow) (id : String) : Option Node := w.nodes.find? (·.id == id)

/-- The first edge with an id. -/
def edge? (w : Workflow) (id : String) : Option Edge := w.edges.find? (·.id == id)

/-- Change the first element with a property. -/
def modifyFirst {α : Type} (p : α → Bool) (f : α → α) : List α → List α
  | [] => []
  | a :: rest => if p a then f a :: rest else a :: modifyFirst p f rest

/-- Change the first node with an id. -/
def modifyNode (w : Workflow) (id : String) (f : Node → Node) : Workflow :=
  { w with nodes := modifyFirst (·.id == id) f w.nodes }

/-- The number behind a stem, if the id is one that could have been generated from it. -/
def idNumber? (stem id : String) : Option UInt32 :=
  if stem.toList.isPrefixOf id.toList then
    (readNat? maxWord32 (String.ofList (id.toList.drop stem.length))).map Nat.toUInt32
  else none

/-- A number with two digits or more. -/
def twoDigits (n : Nat) : String := String.ofList (Instant.padded 2 n)

/-- The next id for a kind of node: one more than the greatest number in use, counted in 32
bits. -/
def nextNodeId (w : Workflow) (kind : NodeKind) : String :=
  let stem := kind.idStem ++ "_"
  let greatest := (w.nodes.filterMap fun n => idNumber? stem n.id).foldl max 0
  stem ++ twoDigits (greatest + 1).toNat

end Workflow

/-- A named set of variables. -/
structure Environment where
  id : String := ""
  name : String := ""
  «variables» : Entries String := []

/-- The providers of language models. -/
inductive Provider where
  | openAi
  | anthropic
deriving DecidableEq

/-- An account with a provider; the key is encrypted. -/
structure Integration where
  id : String
  provider : Provider
  model : String := ""
  baseUrl : Option String := none
  apiKey : String := ""

end Flowline
