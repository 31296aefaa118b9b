import Flowline.Node.Error
import Flowline.Text.LetterCase
import Flowline.Workflow.Basic

/-!
# Validation

`Node.validate` refuses the settings that can never work: unknown methods, malformed paths,
bindings without a name, and batches of no items. What is only not filled in yet passes.
-/

namespace Flowline

/-- The HTTP methods. -/
def httpMethods : List String := ["GET", "POST", "PUT", "PATCH", "DELETE", "HEAD", "OPTIONS"]

/-- The path can be read. -/
def validatePath (path : String) : Except NodeError Unit :=
  match Path.read path with
  | .ok _ => .ok ()
  | .error e => .error (.ofQuery e)

/-- The path can be read if there is one. -/
def validatePath? : Option String → Except NodeError Unit
  | some path => validatePath path
  | none => .ok ()

namespace VariableBinding

/-- The name that stands for a new variable. -/
def createNew : String := "CREATE_NEW"

/-- The trimmed name of the variable that is written, which must not be blank; the path must be
readable too. -/
def targetName (b : VariableBinding) : Except NodeError String :=
  let name := if b.name = createNew then (b.newName.map trim).getD "" else trim b.name
  if name = "" then .error (.configuration .noVariableName)
  else (validatePath? b.path).map fun _ => name

/-- The binding, if there is one, has a name and a readable path. -/
def validate? : Option VariableBinding → Except NodeError Unit
  | some b => b.targetName.map fun _ => ()
  | none => .ok ()

end VariableBinding

/-- The settings can work. -/
def NodeConfig.validate : NodeConfig → Except NodeError Unit
  | .http c =>
    if httpMethods.contains (upperAscii c.method) then VariableBinding.validate? c.binding
    else .error (.configuration (.unsupportedMethod c.method))
  | .command c => VariableBinding.validate? c.binding
  | .parser c => do
    validatePath c.path
    validatePath? c.input
  | .iterator c => validatePath? c.path
  | .collector c =>
    if c.batch ∧ c.batchSize = 0 then .error (.configuration .zeroBatchSize)
    else validatePath? c.path
  | .test c => c.assertions.forM fun a => validatePath? a.path
  | _ => .ok ()

/-- The node has an id, and its settings can work. -/
def Node.validate (n : Node) : Except NodeError Unit :=
  if trim n.id = "" then .error (.configuration .emptyNodeId) else n.config.validate

end Flowline
