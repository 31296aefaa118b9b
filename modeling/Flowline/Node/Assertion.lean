import Flowline.Node.Context
import Flowline.Text.Search
import Flowline.Workflow.Codec

/-!
# Assertions

An assertion looks at the status, a header or the body of another node's result, of this run or of
an earlier one. A test node checks all of its assertions and fails if one of them does not hold.
-/

namespace Flowline

/-- The number that a value is, or that its text denotes. -/
def Json.number? : Json → Option Real64
  | .int n => some (.finite (Double.ofInt n))
  | .float x => some (.finite x)
  | .str s => Real64.read? (trim s)
  | _ => none

/-- Equality that takes a number and its text for the same. -/
def Json.looselySame (actual expected : Json) : Bool :=
  if actual.same expected then true
  else match actual.number?, expected.number? with
    | some a, some b => a.eq b
    | _, _ =>
      if Path.isContainer actual || Path.isContainer expected then false
      else Template.stringify actual == Template.stringify expected

namespace Assertion

/-- The value that the assertion looks at. -/
def actual (a : Assertion) (source : Json) : Except NodeError (Option Json) :=
  let response := source.member? "response"
  match a.kind with
  | .status =>
    .ok <| (response.bind (·.member? "status")) <|> source.member? "status" <|>
      source.member? "exitCode"
  | .headers =>
    let name := lowerCase (trim (a.path.getD ""))
    let headers := (response.bind (·.member? "headers")) <|> source.member? "headers"
    .ok <| match headers with
      | some (.obj members) => (members.find? fun m => lowerCase m.1 == name).map (·.2)
      | _ => none
  | .body =>
    let body := (response.bind (·.member? "data")).getD source
    match NodeContext.givenPath? a.path with
    | some path => (query body path).mapError .ofQuery
    | none => .ok (some body)

/-- The name of an operator in messages. -/
def operatorLabel : AssertionOp → String
  | .equals => "Equals"
  | .notEquals => "NotEquals"
  | .contains => "Contains"
  | .greaterThan => "GreaterThan"
  | .lessThan => "LessThan"
  | .present => "Exists"

/-- The comparison holds of a value that is there. -/
def holds (op : AssertionOp) (actual expected : Json) : Bool :=
  match op with
  | .present => true
  | .equals => actual.looselySame expected
  | .notEquals => !actual.looselySame expected
  | .contains =>
    match actual with
    | .arr items => items.any (·.looselySame expected)
    | other => occursIn (Template.stringify expected) (Template.stringify other)
  | .greaterThan =>
    match actual.number?, expected.number? with
    | some a, some b => b.lt a
    | _, _ => false
  | .lessThan =>
    match actual.number?, expected.number? with
    | some a, some b => a.lt b
    | _, _ => false

/-- Why the comparison does not hold, if it does not. Nothing and null equal no value. -/
def complaint? (op : AssertionOp) (actual : Option Json) (expected : Json) : Option String :=
  match actual with
  | none | some .null =>
    if op = .notEquals && !expected.same .null then none else some "no value found"
  | some actual =>
    if holds op actual expected then none
    else some (operatorLabel op ++ " check failed: actual " ++ Template.stringify actual ++
      ", expected " ++ Template.stringify expected)

/-- What an assertion found, and its complaint. -/
structure Verdict where
  actual : Option Json
  complaint : Option String

/-- Check an assertion against the result of its source, if there is one. -/
def verdict (a : Assertion) (source : Option Json) : Except NodeError Verdict :=
  match source with
  | some source => do
    let actual ← a.actual source
    return ⟨actual, complaint? a.operator actual a.expected⟩
  | none => .ok ⟨none, some ("node '" ++ a.sourceNodeId ++ "' has no result")⟩

/-- The report on an assertion. -/
def report (a : Assertion) (v : Verdict) : Json :=
  .obj [
    ("sourceNodeId", .str a.sourceNodeId),
    ("type", .ofName kinds a.kind),
    ("path", (a.path.map Json.str).getD .null),
    ("operator", .ofName operators a.operator),
    ("expected", a.expected),
    ("actual", v.actual.getD .null),
    ("passed", .bool v.complaint.isNone),
    ("message", (v.complaint.map Json.str).getD .null)]

end Assertion

namespace TestConfig

/-- The result of a node, of this run or else of an earlier one. -/
def resultOf (ctx : NodeContext) (id : String) : Option Json :=
  ctx.scope.data.member? id <|> ctx.previous.get? id

/-- Check all assertions. -/
def outcome (c : TestConfig) (ctx : NodeContext) : Outcome := do
  let verdicts ← c.assertions.mapM fun a => do
    return (a, ← a.verdict (resultOf ctx a.sourceNodeId))
  let total := c.assertions.length
  let failing := verdicts.filter fun e => e.2.complaint.isSome
  let failed := failing.length
  let data := Json.obj [
    ("passed", .bool (failed == 0)),
    ("total", .ofNat total),
    ("passedCount", .ofNat (total - failed)),
    ("failedCount", .ofNat failed),
    ("results", .arr (verdicts.map fun e => e.1.report e.2))]
  if failed = 0 then return { data }
  return {
    data
    failure := some (.assertion failed total)
    halt := failing.any fun e => e.1.stopOnFailure }

end TestConfig

end Flowline
