import Flowline.Graph.Basic
import Flowline.Xml.Value

/-!
# Printed elements

Trees of elements, the texts that they can be printed as, and the values that they stand for.

* `Tree`, `Content`: elements, with names and attributes that are well-formed by their types.
* `Tree.forms`: the texts of an element, with the predefined references for what is markup.
* `Tree.convert`: the value of an element.
-/

namespace Flowline

namespace Xml

/-! ## Trees -/

/-- A name may begin with the character. Whatever is beyond ASCII counts as a letter. -/
def isNameStart (c : Char) : Bool := c.isAlpha || c == '_' || 128 ≤ c.toNat

/-- The character may stand in a name. -/
def isNameChar (c : Char) : Bool := isNameStart c || c.isDigit || c == '-' || c == '.' || c == ':'

/-- The text is a name. -/
def isName : List Char → Bool
  | [] => false
  | first :: rest => isNameStart first && rest.all isNameChar

/-- The name of an element or of an attribute. -/
abbrev Name := { text : List Char // isName text = true }

/-- Attributes, each with its value. -/
structure Attributes where
  entries : List (Name × List Char) := []
  distinct : (entries.map (·.1)).Nodup := by decide

mutual

/-- An element. -/
inductive Tree where
  | element (name : Name) (attributes : Attributes) (content : Content)

/-- What stands in an element: chunks of text with an element between each two of them.  A chunk is
empty where there is no text. -/
inductive Content where
  | last (chunk : List Char)
  | next (chunk : List Char) (child : Tree) (rest : Content)

end

/-- The name of an element. -/
def Tree.name : Tree → Name
  | .element name _ _ => name

/-! ## Printing -/

/-- A character as text. -/
def escapeChar : Char → List Char
  | '<' => ['&', 'l', 't', ';']
  | '>' => ['&', 'g', 't', ';']
  | '&' => ['&', 'a', 'm', 'p', ';']
  | '\'' => ['&', 'a', 'p', 'o', 's', ';']
  | '"' => ['&', 'q', 'u', 'o', 't', ';']
  | c => [c]

/-- Characters as text. -/
def escape (cs : List Char) : List Char := cs.flatMap escapeChar

/-- The attributes behind the name in a tag. -/
def printAttributes (attributes : List (Name × List Char)) : List Char :=
  attributes.flatMap fun a => ' ' :: a.1.val ++ '=' :: '"' :: escape a.2 ++ ['"']

/-- What stands in the tag of an element. -/
def tag (name : Name) (attributes : Attributes) : List Char :=
  name.val ++ printAttributes attributes.entries

/-- Nothing stands in the element. -/
def Content.isEmpty : Content → Bool
  | .last chunk => chunk.isEmpty
  | .next .. => false

mutual

/-- All texts of an element. An element in which nothing stands may be printed as one tag. -/
def Tree.forms : Tree → List (List Char)
  | .element name attributes content =>
    let tag := tag name attributes
    (if content.isEmpty then ['<' :: tag ++ ['/', '>']] else []) ++
      content.forms.map fun inner => '<' :: tag ++ '>' :: inner ++ '<' :: '/' :: name.val ++ ['>']

/-- All texts of what stands in an element. -/
def Content.forms : Content → List (List Char)
  | .last chunk => [escape chunk]
  | .next chunk child rest =>
    child.forms.flatMap fun text => rest.forms.map fun more => escape chunk ++ text ++ more

end

/-! ## Converting -/

/-- The single value of a name, or the array of all of them. -/
def gather : List Json → Json
  | [value] => value
  | values => .arr values

/-- The values of a name. -/
def valuesOf (children : Entries Json) (name : String) : List Json :=
  (children.filter (·.1 == name)).map (·.2)

/-- The values of children by name, in the order in which the names appear first. -/
def group (children : Entries Json) : Entries Json :=
  (distinct children.keys).map fun name => (name, gather (valuesOf children name))

/-- An attribute under its name with an at sign in front. -/
def attributeMember (a : Name × List Char) : String × Json :=
  (String.ofList ('@' :: a.1.val), .str (String.ofList a.2))

/-- The attributes as members. -/
def Attributes.members (attributes : Attributes) : Entries Json :=
  attributes.entries.map attributeMember

/-- The chunks of text, trimmed, one after the other. -/
def Content.text : Content → List Char
  | .last chunk => trimChars chunk
  | .next chunk _ rest => trimChars chunk ++ rest.text

mutual

/-- The value of an element: its text alone if it has neither attributes nor children, else an
object of its attributes, its children by name and, unless it is empty, its text. -/
def Tree.convert : Tree → Json
  | .element _ attributes content =>
    let text := Json.str (String.ofList content.text)
    if attributes.members = [] ∧ content.children = [] then text
    else .obj (attributes.members ++ group content.children ++
      if content.text = [] then [] else [("#text", text)])

/-- The names and the values of the elements in an element. -/
def Content.children : Content → Entries Json
  | .last _ => []
  | .next _ child rest => (String.ofList child.name.val, child.convert) :: rest.children

end

end Xml

end Flowline
