import Flowline.Json.Reader
import Flowline.Node.Context
import Flowline.Workflow.Codec

/-!
# Requests to language models

A prompt goes to the provider of an integration in a single message. The key of the integration is
decrypted for the request and appears nowhere else.
-/

namespace Flowline

/-- The address of a provider. -/
def Provider.address : Provider → String
  | .openAi => "https://api.openai.com/v1"
  | .anthropic => "https://api.anthropic.com/v1"

/-- Where at the address completions are asked for. -/
def Provider.resource : Provider → String
  | .openAi => "chat/completions"
  | .anthropic => "messages"

/-- The headers that carry the key. -/
def Provider.keyHeaders (key : String) : Provider → List (String × String)
  | .openAi => [("Authorization", "Bearer " ++ key)]
  | .anthropic => [("x-api-key", key), ("anthropic-version", "2023-06-01")]

/-- The text of a completion. -/
def Provider.completion? (body : Json) : Provider → Option String
  | .openAi => do
    let choice ← (← (← body.member? "choices").asArr?)[0]?
    (← (← choice.member? "message").member? "content").asStr?
  | .anthropic => do
    let blocks ← (← body.member? "content").asArr?
    return String.join (blocks.filterMap fun b => (b.member? "text").bind Json.asStr?)

namespace PromptConfig

/-- The length of completions unless the node sets one, in tokens. -/
def defaultMaxTokens : Nat := 1024

/-- The integration with an id. -/
def integration (c : PromptConfig) (ctx : NodeContext) : Except NodeError Integration :=
  let id := trim c.integrationId
  if id = "" then .error (.configuration .noIntegration)
  else match ctx.integrations.find? (·.id == id) with
    | some i => .ok i
    | none => .error (.configuration (.unknownIntegration id))

/-- The text without slashes at its end. -/
def dropTrailingSlashes (s : String) : String :=
  String.ofList (s.toList.reverse.dropWhile (· == '/')).reverse

/-- The request for a completion. -/
def request (c : PromptConfig) (ctx : NodeContext) (i : Integration) (key model prompt : String) :
    HttpRequest :=
  let base := (NodeContext.givenPath? i.baseUrl).getD i.provider.address
  let body := Json.obj [
    ("model", .str model),
    ("max_tokens", .ofNat (c.maxTokens.getD defaultMaxTokens)),
    ("messages", .arr [.obj [("role", .str "user"), ("content", .str prompt)]])]
  { method := "POST"
    url := dropTrailingSlashes base ++ "/" ++ i.provider.resource
    headers := i.provider.keyHeaders key ++ [("content-type", "application/json")]
    query := []
    body := some body.write
    timeoutMs := ctx.timeoutMs }

/-- The completion in a response. -/
def completion (i : Integration) (model : String) (r : HttpResponse) : Outcome := do
  if !r.isSuccess then
    throw (.external (.modelStatus r.status (String.ofList (r.body.toList.take 500))))
  let some body := Json.read? r.body | throw (.external .modelNotJson)
  let some text := i.provider.completion? body | throw (.external .modelSilent)
  return { data := .obj [
    ("text", .str text),
    ("model", (body.member? "model").getD (.str model)),
    ("provider", .ofName Integration.providers i.provider),
    ("usage", (body.member? "usage").getD .null)] }

/-- Ask for a completion. -/
def plan (c : PromptConfig) (ctx : NodeContext) : Plan := .orFail do
  let i ← c.integration ctx
  if trim i.apiKey = "" then throw (.configuration (.noApiKey i.id))
  let key ← (ctx.directory.decrypt i.apiKey).mapError fun reason =>
    NodeError.configuration (.lockedApiKey i.id reason)
  let model := (NodeContext.givenPath? c.model).getD i.model
  if model = "" then throw (.configuration .noModel)
  if trim c.prompt = "" then throw (.configuration .noPrompt)
  let prompt ← ctx.render c.prompt
  return .http (c.request ctx i key model prompt) fun
    | .ok response => completion i model response
    | .error reason => .error (.external (.model reason))

end PromptConfig

end Flowline
