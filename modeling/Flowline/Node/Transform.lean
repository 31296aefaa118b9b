import Flowline.Json.Reader
import Flowline.Node.Context

/-!
# Parsing and formatting

A parser takes a part out of what comes in, which may be the text of a JSON or XML document. A
format node renders a template, whose text may in turn be read as JSON.
-/

namespace Flowline

namespace ParserConfig

/-- What is parsed: what the selector denotes in the outputs so far, or else what comes in. -/
def source (c : ParserConfig) (ctx : NodeContext) : Except NodeError Json :=
  match NodeContext.givenPath? c.input with
  | some selector =>
    ((query ctx.scope.data selector).map (·.getD .null)).mapError .ofQuery
  | none => .ok ctx.primaryInput

/-- A document: a text is read, all else is a document already. -/
def document (mode : ParserMode) (source : Json) : Except NodeError Json :=
  match mode, source with
  | .xml, .str text => (Xml.read text).mapError fun fault => .evaluation (.xml fault)
  | .json, .str text => .ok ((Json.read? text).getD (.str text))
  | _, value => .ok value

/-- The part that the path denotes, null if there is none. -/
def outcome (c : ParserConfig) (ctx : NodeContext) : Outcome := do
  let document ← document c.mode (← c.source ctx)
  let part ← (query document c.path).mapError .ofQuery
  return { data := part.getD .null }

end ParserConfig

namespace FormatConfig

/-- The rendered template. -/
def outcome (c : FormatConfig) (ctx : NodeContext) : Outcome := do
  let text ← ctx.render c.template
  match c.mode with
  | .text => return { data := .str text }
  | .json =>
    match Json.read? text with
    | some data => return { data }
    | none => throw (.evaluation .notJson)

end FormatConfig

end Flowline
