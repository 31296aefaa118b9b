import Flowline.Workflow.Codec
import Flowline.Workflow.Validate

/-!
# Edits

An `EditCommand` asks for a change of a workflow. Where it applies, it gives the changed workflow
and an `AppliedEdit`, which holds what is needed to undo and redo the change. What runs have left
at the nodes is no part of an edit.
-/

namespace Flowline

/-- A change that is asked for. -/
inductive EditCommand where
  /-- Add a node; a blank id is replaced by the next one for its kind. -/
  | addNode (node : Node)
  /-- Remove a node and the edges at it. -/
  | removeNode (id : String)
  | moveNode (id : String) (position : Position)
  /-- Replace the settings of a node. -/
  | updateNode (node : Node)
  /-- Add an edge; a blank id is replaced by a new one. -/
  | addEdge (edge : Edge)
  | removeEdge (id : String)

/-- A change that was made. -/
inductive AppliedEdit where
  | addedNode (node : Node) (index : Nat)
  /-- The removed edges stand with their former places. -/
  | removedNode (node : Node) (index : Nat) (edges : List (Nat × Edge))
  | movedNode (id : String) (source target : Position)
  | updatedNode (before after : Node)
  | addedEdge (edge : Edge) (index : Nat)
  | removedEdge (edge : Edge) (index : Nat)

/-- Why a command does not apply. -/
inductive EditError where
  | nodeNotFound (id : String)
  | edgeNotFound (id : String)
  | duplicateNode (id : String)
  | duplicateEdge (id : String)
  | danglingEdge (edge node : String)
  | invalidNode (id : String) (reason : NodeError)
deriving DecidableEq

/-- The error in words. -/
def EditError.message : EditError → String
  | nodeNotFound id => "node '" ++ id ++ "' not found"
  | edgeNotFound id => "edge '" ++ id ++ "' not found"
  | duplicateNode id => "node '" ++ id ++ "' already exists"
  | duplicateEdge id => "edge '" ++ id ++ "' already exists"
  | danglingEdge edge node => "edge '" ++ edge ++ "' references unknown node '" ++ node ++ "'"
  | invalidNode id reason => "invalid node '" ++ id ++ "': " ++ reason.message

namespace EditCommand

open Decoder Fields

/-- The decoders of the commands, by action. -/
def decoders : List (String × Decoder EditCommand) :=
  [("addNode", record (addNode <$> required "node" Node.decode)),
    ("removeNode", record (removeNode <$> required "id" string)),
    ("moveNode", record (moveNode <$> required "id" string <*>
      required "position" Position.decode)),
    ("updateNode", record (updateNode <$> required "node" Node.decode)),
    ("addEdge", record (addEdge <$> required "edge" Edge.decode)),
    ("removeEdge", record (removeEdge <$> required "id" string))]

def decode : Decoder EditCommand := tagged "action" decoders

def encode : EditCommand → Json
  | addNode node => .obj [("action", .str "addNode"), ("node", node.encode)]
  | removeNode id => .obj [("action", .str "removeNode"), ("id", .str id)]
  | moveNode id position =>
    .obj [("action", .str "moveNode"), ("id", .str id), ("position", position.encode)]
  | updateNode node => .obj [("action", .str "updateNode"), ("node", node.encode)]
  | addEdge edge => .obj [("action", .str "addEdge"), ("edge", edge.encode)]
  | removeEdge id => .obj [("action", .str "removeEdge"), ("id", .str id)]

end EditCommand

namespace Workflow

/-- The place of the first node with an id, and that node. -/
def locateNode (w : Workflow) (id : String) : Except EditError (Nat × Node) :=
  match w.nodes.findIdx? (·.id == id), w.node? id with
  | some index, some node => .ok (index, node)
  | _, _ => .error (.nodeNotFound id)

/-- The place of the first edge with an id, and that edge. -/
def locateEdge (w : Workflow) (id : String) : Except EditError (Nat × Edge) :=
  match w.edges.findIdx? (·.id == id), w.edge? id with
  | some index, some edge => .ok (index, edge)
  | _, _ => .error (.edgeNotFound id)

/-- Both ends of an edge exist; the source is looked at first. -/
def checkEnds (w : Workflow) (e : Edge) : Except EditError Unit :=
  if (w.node? e.source).isNone then .error (.danglingEdge e.id e.source)
  else if (w.node? e.target).isNone then .error (.danglingEdge e.id e.target)
  else .ok ()

/-- Insert an element at a place, or at the end if the place is beyond it. -/
def insertClamped {α : Type} (index : Nat) (a : α) (items : List α) : List α :=
  items.take index ++ a :: items.drop index

end Workflow

namespace EditCommand

/-- The node is valid. -/
def checkNode (n : Node) : Except EditError Unit := n.validate.mapError (.invalidNode n.id)

/-- Make the change. `fresh` ends the id of an edge that has none yet. -/
def apply (command : EditCommand) (fresh : String) (w : Workflow) :
    Except EditError (AppliedEdit × Workflow) := do
  match command with
  | addNode node =>
    let node := if trim node.id = "" then { node with id := w.nextNodeId node.kind } else node
    if (w.node? node.id).isSome then throw (.duplicateNode node.id)
    checkNode node
    return (.addedNode node w.nodes.length, { w with nodes := w.nodes ++ [node] })
  | removeNode id =>
    let (index, node) ← w.locateNode id
    let removed := (w.edges.zipIdx.filter (·.1.touches id)).map fun e => (e.2, e.1)
    return (.removedNode node index removed,
      { w with nodes := w.nodes.eraseIdx index, edges := w.edges.filter (!·.touches id) })
  | moveNode id position =>
    let (_, node) ← w.locateNode id
    return (.movedNode id node.position position, w.modifyNode id ({ · with position }))
  | updateNode node =>
    let (_, before) ← w.locateNode node.id
    checkNode node
    let after := { node with state := before.state }
    return (.updatedNode before after, w.modifyNode node.id fun _ => after)
  | addEdge edge =>
    let edge :=
      if trim edge.id = "" then
        { edge with id := edge.source ++ "-" ++ edge.target ++ "-" ++ fresh }
      else edge
    if (w.edge? edge.id).isSome then throw (.duplicateEdge edge.id)
    w.checkEnds edge
    return (.addedEdge edge w.edges.length, { w with edges := w.edges ++ [edge] })
  | removeEdge id =>
    let (index, edge) ← w.locateEdge id
    return (.removedEdge edge index, { w with edges := w.edges.eraseIdx index })

end EditCommand

namespace AppliedEdit

open Workflow (insertClamped)

/-- Put the settings of a node back, and leave what runs have left at it. -/
def restore (w : Workflow) (n : Node) : Workflow :=
  w.modifyNode n.id ({ n with state := ·.state })

/-- Take the change back. -/
def undo (edit : AppliedEdit) (w : Workflow) : Workflow :=
  match edit with
  | addedNode node _ => { w with nodes := w.nodes.filter (·.id != node.id) }
  | removedNode node index edges =>
    { w with
      nodes := insertClamped index node w.nodes
      edges := edges.foldl (fun es e => insertClamped e.1 e.2 es) w.edges }
  | movedNode id source _ => w.modifyNode id ({ · with position := source })
  | updatedNode before _ => restore w before
  | addedEdge edge _ => { w with edges := w.edges.filter (·.id != edge.id) }
  | removedEdge edge index => { w with edges := insertClamped index edge w.edges }

/-- Make the change again. -/
def redo (edit : AppliedEdit) (w : Workflow) : Workflow :=
  match edit with
  | addedNode node index => { w with nodes := insertClamped index node w.nodes }
  | removedNode node _ _ =>
    { w with
      nodes := w.nodes.filter (·.id != node.id)
      edges := w.edges.filter (!·.touches node.id) }
  | movedNode id _ target => w.modifyNode id ({ · with position := target })
  | updatedNode _ after => restore w after
  | addedEdge edge index => { w with edges := insertClamped index edge w.edges }
  | removedEdge edge _ => { w with edges := w.edges.filter (·.id != edge.id) }

def encode : AppliedEdit → Json
  | addedNode node index => .obj [("addedNode", node.encode), ("index", .ofNat index)]
  | removedNode node index edges => .obj [("removedNode", node.encode), ("index", .ofNat index),
    ("edges", .ofList (fun e => .arr [.ofNat e.1, e.2.encode]) edges)]
  | movedNode id source target =>
    .obj [("movedNode", .str id), ("from", source.encode), ("to", target.encode)]
  | updatedNode before after =>
    .obj [("updatedNode", .obj [("before", before.encode), ("after", after.encode)])]
  | addedEdge edge index => .obj [("addedEdge", edge.encode), ("index", .ofNat index)]
  | removedEdge edge index => .obj [("removedEdge", edge.encode), ("index", .ofNat index)]

end AppliedEdit

end Flowline
