import Flowline.Json.Encode
import Flowline.Json.Reader
import Flowline.Node.Context
import Flowline.Text.Search

/-!
# HTTP requests

The URL, the headers, the parameters and the body are templates. The response is data whatever its
status; a failure is only a request without response.
-/

namespace Flowline

/-- A body as data: JSON if it is that, XML if the content type says so and it is that, else
text. -/
def HttpResponse.data (r : HttpResponse) : Json :=
  match Json.read? r.body with
  | some value => value
  | none =>
    if occursIn "xml" (lowerCase (r.contentType?.getD "")) then
      match Xml.read r.body with
      | .ok value => value
      | .error _ => .str r.body
    else .str r.body

/-- The headers as data, their names in lower case. -/
def HttpResponse.headerData (r : HttpResponse) : Json :=
  .obj (Entries.ofList (r.headers.map fun h => (lowerCase h.1, Json.str h.2)))

namespace HttpConfig

/-- The headers that go out: a body that is JSON is declared so unless the type is given. -/
def withContentType (headers : List (String × String)) (body : Option String) :
    List (String × String) :=
  let given := headers.any fun h => sameIgnoringAsciiCase h.1 "content-type"
  match body with
  | some body =>
    if !given && (Json.read? body).isSome then
      headers ++ [("Content-Type", "application/json")]
    else headers
  | none => headers

/-- The response as output. -/
def output (c : HttpConfig) (r : HttpResponse) : Outcome := do
  let data := Json.obj [("response", .obj [
    ("status", .ofNat r.status),
    ("statusText", .str r.statusText),
    ("ok", .bool r.isSuccess),
    ("headers", r.headerData),
    ("data", r.data)])]
  return { data, «variables» := ← VariableBinding.writes c.binding data "response.data" }

/-- Send the request. -/
def plan (c : HttpConfig) (ctx : NodeContext) : Plan := .orFail do
  if trim c.url = "" then throw (.configuration .noUrl)
  let url ← ctx.render (trim c.url)
  let headers ← ctx.renderPairs c.headers
  let query ← ctx.renderPairs c.params
  let body ← match c.body with
    | some body => if trim body = "" then pure none else some <$> ctx.render body
    | none => pure none
  let request : HttpRequest :=
    { method := upperAscii c.method, url, headers := withContentType headers body, query, body,
      timeoutMs := ctx.timeoutMs }
  return .http request fun
    | .ok response => c.output response
    | .error reason => .error (.external (.http reason))

end HttpConfig

end Flowline
