import Flowline.Text.Search

/-!
# Routes

The target of a request, a path or a whole address, leads to a `Route`, and its method asks for one
of the `Action`s there. The id of a node may be written with percent signs in a path.
-/

namespace Flowline.Api

/-- The places that a path can lead to. -/
inductive Route where
  | workflow
  | edits
  | undo
  | redo
  | runs
  | cancel
  | runState
  | nodeStates
  /-- The state of one node, by its encoded id. -/
  | nodeState (id : String)
deriving DecidableEq

/-- What can be asked for. -/
inductive Action where
  | showWorkflow
  | replaceWorkflow
  | edit
  | undo
  | redo
  | startRun
  | cancelRun
  | showRun
  | resetNodes
  | resetNode (id : String)
deriving DecidableEq

namespace Route

/-- The character can occur in the scheme of an address. -/
def inScheme (c : Char) : Bool := c.isAlphanum || c == '+' || c == '-' || c == '.'

/-- What stands behind scheme and host, if the target of a request is a whole address. -/
def withoutHost (target : List Char) : List Char :=
  let scheme := target.takeWhile inScheme
  match scheme, target.drop scheme.length with
  | _ :: _, ':' :: '/' :: '/' :: rest => rest.dropWhile fun c => c != '/' && c != '?' && c != '#'
  | _, _ => target

/-- The parts of the path of a target, which ends before a query or a fragment. -/
def segments (target : String) : List String :=
  let path := (withoutHost target.toList).takeWhile fun c => c != '?' && c != '#'
  (splitEach '/' path).map String.ofList

/-- The place that the target of a request leads to; the part for an id may be empty. -/
def ofTarget? (target : String) : Option Route :=
  match segments target with
  | ["", "api", "workflow"] => some .workflow
  | ["", "api", "workflow", "edits"] => some .edits
  | ["", "api", "workflow", "undo"] => some .undo
  | ["", "api", "workflow", "redo"] => some .redo
  | ["", "api", "runs"] => some .runs
  | ["", "api", "runs", "cancel"] => some .cancel
  | ["", "api", "runs", "state"] => some .runState
  | ["", "api", "nodes", "state"] => some .nodeStates
  | ["", "api", "nodes", id, "state"] => some (.nodeState id)
  | _ => none

/-- The action that a method asks for. -/
def action? (route : Route) (method : String) : Option Action :=
  match route, method with
  | .workflow, "GET" => some .showWorkflow
  | .workflow, "PUT" => some .replaceWorkflow
  | .edits, "POST" => some .edit
  | .undo, "POST" => some .undo
  | .redo, "POST" => some .redo
  | .runs, "POST" => some .startRun
  | .cancel, "POST" => some .cancelRun
  | .runState, "GET" => some .showRun
  | .nodeStates, "DELETE" => some .resetNodes
  | .nodeState id, "DELETE" => some (.resetNode id)
  | _, _ => none

end Route

/-! ## Percent signs -/

/-- The value of a hexadecimal digit. -/
def hexDigit? (b : UInt8) : Option UInt8 :=
  if '0'.toUInt8 ≤ b ∧ b ≤ '9'.toUInt8 then some (b - '0'.toUInt8)
  else if 'a'.toUInt8 ≤ b ∧ b ≤ 'f'.toUInt8 then some (b - 'a'.toUInt8 + 10)
  else if 'A'.toUInt8 ≤ b ∧ b ≤ 'F'.toUInt8 then some (b - 'A'.toUInt8 + 10)
  else none

/-- Replace each percent sign that two hexadecimal digits follow by the byte they denote. -/
def unescape : List UInt8 → List UInt8
  | b :: high :: low :: rest =>
    match b == '%'.toUInt8, hexDigit? high, hexDigit? low with
    | true, some h, some l => (h * 16 + l) :: unescape rest
    | _, _, _ => b :: unescape (high :: low :: rest)
  | short => short

/-- The text that an encoded part of a path stands for, unless its bytes are no text. -/
def decodeSegment? (segment : String) : Option String :=
  String.fromUTF8? ⟨(unescape segment.toUTF8.toList).toArray⟩

end Flowline.Api
