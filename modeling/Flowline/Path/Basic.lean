import Flowline.Json.Basic

/-!
# Paths into values

A path is a list of steps. `collect` says what one step reaches from one value, `select` follows
all steps from a list of current values, and `Path.evaluate?` gives the single value that a path
denotes: the first one reached or, behind a wildcard, the array of all of them.
-/

namespace Flowline

/-- One step of a path. -/
inductive Step where
  /-- A member of an object. -/
  | key (name : String)
  /-- An element of an array. -/
  | index (n : Nat)
  /-- Every element of an array and every member of an object. -/
  | wildcard
deriving DecidableEq

namespace Step

/-- What the step reaches from one value. An index also reaches into the arrays among the members
of an object, in their order. -/
def collect : Step → Json → List Json
  | key name, value => (value.member? name).toList
  | index n, .arr elements => elements[n]?.toList
  | index n, .obj members =>
    members.flatMap fun m => match m.2 with
      | .arr elements => elements[n]?.toList
      | _ => []
  | index _, _ => []
  | wildcard, .arr elements => elements
  | wildcard, .obj members => members.map (·.2)
  | wildcard, _ => []

/-- The step can be looked up at all: no signed 64-bit number is above `2 ^ 63 - 1`, and a name
that ends in a backslash would escape its closing quote. -/
def isAnswerable : Step → Bool
  | key name => name.toList.getLast? != some '\\'
  | index n => n < Nat.pow 2 63
  | wildcard => true

end Step

/-- Everything that the steps reach, in order. -/
def select (steps : List Step) (values : List Json) : List Json :=
  steps.foldl (fun current step => current.flatMap step.collect) values

/-- A path expression: its text and its steps. -/
structure Path where
  raw : String
  steps : List Step

namespace Path

/-- The path is the empty one, which denotes the whole value. -/
def isEmpty (p : Path) : Bool := p.steps.isEmpty

/-- Some step is a wildcard. -/
def hasWildcard (p : Path) : Bool := p.steps.contains .wildcard

/-- The steps before the first wildcard. -/
def beforeWildcard (p : Path) : List Step := p.steps.takeWhile (· != .wildcard)

/-- The value is an array or an object. -/
def isContainer : Json → Bool
  | .arr _ => true
  | .obj _ => true
  | _ => false

/-- The value that the path denotes, if there is one. A path with a wildcard denotes an array as
soon as the steps before the wildcard reach a container. -/
def evaluate? (p : Path) (value : Json) : Option Json :=
  if p.steps.isEmpty then some value
  else if !p.steps.all Step.isAnswerable then none
  else if p.hasWildcard then
    match select p.beforeWildcard [value] with
    | base :: _ => if isContainer base then some (.arr (select p.steps [value])) else none
    | [] => none
  else (select p.steps [value]).head?

/-- The path in query notation: names in quotes that do not occur in them. -/
def queryText (steps : List Step) : String :=
  String.join <| "$" :: steps.map fun
    | .key name =>
      if name.toList.contains '\'' then "[\"" ++ name ++ "\"]" else "['" ++ name ++ "']"
    | .index n => "[" ++ String.ofList (Decimal.digitChars n) ++ "]"
    | .wildcard => "[*]"

end Path

end Flowline
