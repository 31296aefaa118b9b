import Flowline.Json.Writer
import Flowline.Text.Blank
import Flowline.Xml.Markup

/-!
# XML as a value

An element becomes the object of its attributes, under names with an at sign in front, and of its
children by name, repeated children as an array. Its text stands under `#text`, and an element
with neither attributes nor children is its text alone.
-/

namespace Flowline

/-- Why a text is no XML document. -/
inductive XmlFault where
  /-- The markup is broken, or an end tag does not match the open element. -/
  | malformed
  | badText
  | badAttribute
  | badAttributeValue
  | unfinished
  | noRoot
deriving DecidableEq

/-- The fault in words; `<detail>` stands for the place and nature of what is broken. -/
def XmlFault.message : XmlFault → String
  | malformed => "invalid XML: error at position <detail>"
  | badText => "invalid XML: bad text content: <detail>"
  | badAttribute => "invalid XML: bad attribute: <detail>"
  | badAttributeValue => "invalid XML: bad attribute value: <detail>"
  | unfinished => "invalid XML: unexpected end of document"
  | noRoot => "invalid XML: document has no root element"

namespace Xml

/-- The name of an attribute and its raw value, with the text behind it; `none` inside if the
text in front holds no well-formed attribute, `none` outside if it is blank. -/
def nextAttribute? (text : List Char) :
    Option (Option ((List Char × List Char) × List Char)) :=
  match text.dropWhile isSpace with
  | [] => none
  | first :: rest =>
    let endsKey (c : Char) : Bool := c == '=' || isSpace c
    let key := first :: rest.takeWhile (!endsKey ·)
    some <| match (rest.dropWhile (!endsKey ·)).dropWhile isSpace with
      | '=' :: behind =>
        match behind.dropWhile isSpace with
        | quote :: value =>
          if (quote = '"' ∨ quote = '\'') ∧ value.contains quote then
            some ((key, value.takeWhile (· != quote)), (Markup.splitAt quote value).2)
          else none
        | [] => none
      | _ => none

/-- The attributes in the text behind a tag's name, put onto those already read. At most `steps`
are read, and a text of `n` characters holds fewer than `n`. -/
def readAttributes (steps : Nat) (seen : Entries Json) (text : List Char) :
    Except XmlFault (Entries Json) :=
  match steps with
  | 0 => .ok seen
  | steps + 1 =>
    match nextAttribute? text with
    | none => .ok seen
    | some none => .error .badAttribute
    | some (some ((key, raw), rest)) =>
      let name := String.ofList ('@' :: key)
      if seen.has name then .error .badAttribute
      else match unescape? none raw with
        | none => .error .badAttributeValue
        | some value => readAttributes steps (seen.put name (.str (String.ofList value))) rest

/-- An element that is being read: its name, what it holds so far and its text so far. -/
structure Element where
  name : List Char
  children : Entries Json
  text : List Char

namespace Element

/-- The element of a tag. -/
def ofTag (content : List Char) : Except XmlFault Element := do
  let name := content.takeWhile (!isSpace ·)
  let attributes := content.dropWhile (!isSpace ·)
  return ⟨name, ← readAttributes (attributes.length + 1) [] attributes, []⟩

/-- The element as a value. -/
def toJson (e : Element) : Json :=
  let text := Json.str (String.ofList e.text)
  if e.children = [] then text
  else if e.text = [] then .obj e.children
  else .obj (Entries.put e.children "#text" text)

/-- Add a child: a second child of a name makes an array of both. -/
def addChild (parent : Element) (name : List Char) (value : Json) : Element :=
  let key := String.ofList name
  let held := match Entries.get? parent.children key with
    | some (.arr elements) => .arr (elements ++ [value])
    | some first => .arr [first, value]
    | none => value
  { parent with children := Entries.put parent.children key held }

/-- Add characters to the text. -/
def addText (e : Element) (cs : List Char) : Element := { e with text := e.text ++ cs }

end Element

/-- The elements that are open around a place, the innermost first, with the document as the
outermost. -/
structure Nesting where
  current : Element
  around : List Element

/-- Take one piece of markup. -/
def Nesting.take (n : Nesting) : Markup → Except XmlFault Nesting
  | .opening content => do return ⟨← Element.ofTag content, n.current :: n.around⟩
  | .selfClosing content => do
    let e ← Element.ofTag content
    return { n with current := n.current.addChild e.name e.toJson }
  | .closing name =>
    match n.around with
    | [] => .error .malformed
    | parent :: around =>
      if name = n.current.name then
        .ok ⟨parent.addChild n.current.name n.current.toJson, around⟩
      else .error .malformed
  | .text raw =>
    match unescape? none raw with
    | none => .error .badText
    | some cs => .ok { n with current := n.current.addText (trimChars cs) }
  | .literal content => .ok { n with current := n.current.addText content }
  | .skipped => .ok n
  | .malformed => .error .malformed

/-- The value of a sequence of markup: an object of the root elements. -/
def ofMarkup (pieces : List Markup) : Except XmlFault Json := do
  let n ← pieces.foldlM Nesting.take ⟨⟨[], [], []⟩, []⟩
  if n.around ≠ [] then throw .unfinished
  if n.current.children = [] then throw .noRoot
  return .obj n.current.children

/-- The value of an XML text. A byte order mark in front is skipped. -/
def read (text : String) : Except XmlFault Json :=
  ofMarkup <| Markup.scan false <| match text.toList with
    | '\ufeff' :: rest => rest
    | all => all

/-- The text of a value that an element was turned into. -/
def textOf? : Json → Option String
  | .str s => some s
  | .obj members => (Entries.get? members "#text").bind Json.asStr?
  | .int n => some (Json.int n).write
  | .float x => some x.text
  | _ => none

end Xml

end Flowline
