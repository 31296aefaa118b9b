import Flowline.Json.Shape
import Flowline.Json.Token

/-!
# Reading the text of a value

`Json.readAs` assembles the tokens of a text into one value of a shape, with the containers that
are still open in a list, innermost first. Of several faults the first one in the text counts: a
token that cannot stand in its place makes the text malformed, and one that can, but does not agree
with the shape, gives the value the wrong shape. A repeated member name keeps its first place and
takes its last value. At most `maxDepth` containers may be open at a time; what is passed over does
not count.
-/

namespace Flowline

namespace Json

/-- What is wrong with the text of a value. -/
inductive TextFault where
  | malformed
  | wrongShape
deriving DecidableEq

/-- How the elements of an open array are taken. -/
inductive ArrayPlan where
  | ignored
  | all (element : Shape)
  /-- The fields of a record in their order. -/
  | record (fields : List (String × Bool × Shape))
  /-- A name, then anything. -/
  | tagged (names : List String) (fits : Json → Bool)

namespace ArrayPlan

/-- The shape of the element behind so many others. -/
def shapeAt (plan : ArrayPlan) (count : Nat) : Except TextFault Shape :=
  match plan with
  | ignored => .ok .ignored
  | all element => .ok element
  | record fields =>
    match fields[count]? with
    | some (_, _, shape) => .ok shape
    | none => .error .malformed
  | tagged names _ =>
    .ok (if count = 0 then .plain fun v => v.asStr?.any names.contains else .written)

/-- The value of the array with its elements. -/
def close (plan : ArrayPlan) (elements : List Json) : Except TextFault Json :=
  let complete := match plan with
    | record fields => (fields.drop elements.length).all fun f => !f.2.1
    | tagged _ fits => elements ≠ [] && fits (.arr elements)
    | _ => true
  if complete then .ok (.arr elements) else .error .wrongShape

end ArrayPlan

/-- How the members of an open object are taken. -/
inductive ObjectPlan where
  | ignored
  | all (member : Shape)
  /-- Like `all`, but with every member of the same name. -/
  | written
  | variant (names : List String)
  | record (fields : List (String × Bool × Shape))
  | tagged (tag : String) (names : List String) (fits : Json → Bool)

namespace ObjectPlan

/-- The shape of the member of a name behind others. -/
def shapeAt (plan : ObjectPlan) (taken : Entries Json) (name : String) :
    Except TextFault Shape :=
  match plan with
  | ignored => .ok .ignored
  | all member => .ok member
  | written => .ok .written
  | variant names =>
    if names.contains name then .ok (.plain fun v => v matches .null) else .error .wrongShape
  | record fields =>
    match fields.lookup name with
    | none => .ok .ignored
    | some (_, shape) => if taken.has name then .error .wrongShape else .ok shape
  | tagged tag names _ =>
    if name != tag then .ok .written
    else if taken.has name then .error .wrongShape
    else .ok (.plain fun v => v.asStr?.any names.contains)

/-- The members with one more. -/
def store (plan : ObjectPlan) (taken : Entries Json) (name : String) (value : Json) :
    Entries Json :=
  match plan with
  | ignored => taken
  | all _ | variant _ => taken.put name value
  | written | tagged .. => taken ++ [(name, value)]
  | record fields => if (fields.lookup name).isSome then taken ++ [(name, value)] else taken

/-- Another member may follow. -/
def goesOn : ObjectPlan → Bool
  | variant _ => false
  | _ => true

/-- The value of the object with its members. -/
def close (plan : ObjectPlan) (members : Entries Json) : Except TextFault Json :=
  match plan with
  | variant _ => if members = [] then .error .malformed else .ok (.obj members)
  | record fields =>
    if fields.all fun f => !f.2.1 || members.has f.1 then .ok (.obj members)
    else .error .wrongShape
  | tagged tag _ fits =>
    if members.has tag && fits (.obj members) then .ok (.obj members) else .error .wrongShape
  | _ => .ok (.obj members)

end ObjectPlan

/-- A container that is not closed yet: the elements so far, the last one first, or the members so
far and the name that waits for its value. -/
inductive Container where
  | arr (plan : ArrayPlan) (taken : List Json)
  | obj (plan : ObjectPlan) (taken : Entries Json) (name : String)

/-- The container is passed over. -/
def Container.isIgnored : Container → Bool
  | arr .ignored _ | obj .ignored .. => true
  | _ => false

/-- What may follow. -/
inductive Expectation where
  | value (shape : Shape)
  | firstElement
  | firstName
  | name
  | colon (shape : Shape)
  | separator
  | nothing

/-- A value in the course of assembly. -/
structure Assembly where
  opened : List Container := []
  expect : Expectation
  result : Json := .null

/-- How many containers may be open at a time. -/
def maxDepth : Nat := 127

namespace Assembly

/-- A value is complete: hand it to the innermost open container. -/
def give (a : Assembly) (v : Json) : Assembly :=
  match a.opened with
  | [] => ⟨[], .nothing, v⟩
  | .arr plan taken :: rest =>
    { a with opened := .arr plan (v :: taken) :: rest, expect := .separator }
  | .obj plan taken name :: rest =>
    { a with opened := .obj plan (plan.store taken name v) name :: rest, expect := .separator }

/-- Open a container. -/
def enter (a : Assembly) (c : Container) : Except TextFault Assembly :=
  let expect : Expectation := match c with
    | .arr .. => .firstElement
    | .obj .. => .firstName
  if c.isIgnored || (a.opened.filter (!·.isIgnored)).length < maxDepth then
    .ok { a with opened := c :: a.opened, expect }
  else .error .malformed

/-- Close the innermost container. -/
def closeArr (a : Assembly) : Except TextFault Assembly :=
  match a.opened with
  | .arr plan taken :: rest => do
    return give { a with opened := rest } (← plan.close taken.reverse)
  | _ => .error .malformed

@[inherit_doc closeArr]
def closeObj (a : Assembly) : Except TextFault Assembly :=
  match a.opened with
  | .obj plan taken _ :: rest => do
    return give { a with opened := rest } (← plan.close taken)
  | _ => .error .malformed

/-- A token where a value of a shape may stand. -/
def value (a : Assembly) (t : Token) : Shape → Except TextFault Assembly
  | .ignored =>
    match t with
    | .scalar _ | .halfText | .hugeNumber => .ok (a.give .null)
    | .openArr => a.enter (.arr .ignored [])
    | .openObj => a.enter (.obj .ignored [] "")
    | _ => .error .malformed
  | .value =>
    match t with
    | .scalar v => .ok (a.give v)
    | .openArr => a.enter (.arr (.all .value) [])
    | .openObj => a.enter (.obj (.all .value) [] "")
    | _ => .error .malformed
  | .written =>
    match t with
    | .scalar v => .ok (a.give v)
    | .openArr => a.enter (.arr (.all .written) [])
    | .openObj => a.enter (.obj .written [] "")
    | _ => .error .malformed
  | .plain fits =>
    match t with
    | .scalar v => if fits v then .ok (a.give v) else .error .wrongShape
    | .openArr | .openObj => .error .wrongShape
    | _ => .error .malformed
  | .nullable inner =>
    match t with
    | .scalar .null => .ok (a.give .null)
    | t => a.value t inner
  | .list element =>
    match t with
    | .openArr => a.enter (.arr (.all element) [])
    | .scalar _ | .openObj => .error .wrongShape
    | _ => .error .malformed
  | .dictionary member =>
    match t with
    | .openObj => a.enter (.obj (.all member) [] "")
    | .scalar _ | .openArr => .error .wrongShape
    | _ => .error .malformed
  | .variant names =>
    match t with
    | .scalar (.str s) => if names.contains s then .ok (a.give (.str s)) else .error .wrongShape
    | .openObj => a.enter (.obj (.variant names) [] "")
    | _ => .error .malformed
  | .record fields =>
    match t with
    | .openObj => a.enter (.obj (.record fields) [] "")
    | .openArr => a.enter (.arr (.record fields) [])
    | .scalar _ => .error .wrongShape
    | _ => .error .malformed
  | .tagged tag names fits =>
    match t with
    | .openObj => a.enter (.obj (.tagged tag names fits) [] "")
    | .openArr => a.enter (.arr (.tagged names fits) [])
    | .scalar _ => .error .wrongShape
    | _ => .error .malformed

/-- A token where an element of the innermost array may stand. -/
def element (a : Assembly) (t : Token) : Except TextFault Assembly :=
  match a.opened with
  | .arr plan taken :: _ => do a.value t (← plan.shapeAt taken.length)
  | _ => .error .malformed

/-- A token where the name of a member may stand. -/
def name (a : Assembly) (t : Token) : Except TextFault Assembly :=
  match a.opened, t with
  | .obj plan taken _ :: rest, .scalar (.str name) => do
    let shape ← plan.shapeAt taken name
    return { a with opened := .obj plan taken name :: rest, expect := .colon shape }
  | .obj .ignored .. :: _, .halfText => .ok { a with expect := .colon .ignored }
  | .obj (.variant _) .. :: _, .scalar _ => .error .wrongShape
  | .obj (.variant _) .. :: _, .openArr => .error .wrongShape
  | .obj (.variant _) .. :: _, .openObj => .error .wrongShape
  | _, _ => .error .malformed

/-- Take one token. -/
def step (a : Assembly) (t : Token) : Except TextFault Assembly :=
  match a.expect, t with
  | .value shape, t => a.value t shape
  | .firstElement, .closeArr => a.closeArr
  | .firstElement, t => a.element t
  | .firstName, .closeObj => a.closeObj
  | .firstName, t => a.name t
  | .name, t => a.name t
  | .colon shape, .colon => .ok { a with expect := .value shape }
  | .separator, .comma =>
    match a.opened with
    | .arr plan taken :: _ => do
      return { a with expect := .value (← plan.shapeAt taken.length) }
    | .obj plan .. :: _ =>
      if plan.goesOn then .ok { a with expect := .name } else .error .malformed
    | [] => .error .malformed
  | .separator, .closeArr => a.closeArr
  | .separator, .closeObj => a.closeObj
  | _, _ => .error .malformed

end Assembly

/-- The value of a shape that a sequence of tokens denotes. -/
def ofTokens (shape : Shape) (tokens : List Token) : Except TextFault Json := do
  let a ← tokens.foldlM Assembly.step ({ expect := .value shape } : Assembly)
  match a.expect with
  | .nothing => return a.result
  | _ => throw .malformed

/-- The value of a shape that a text denotes. -/
def readAs (shape : Shape) (s : String) : Except TextFault Json :=
  ofTokens shape (Token.scan s.toList)

/-- The value that a text denotes, `none` if the text is malformed. -/
def read? (s : String) : Option Json := (readAs .value s).toOption

end Json

end Flowline
