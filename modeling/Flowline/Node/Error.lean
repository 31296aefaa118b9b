import Flowline.Path.Reader
import Flowline.Xml.Value

/-!
# Failures of nodes

A node fails because of its settings, because an expression or a text cannot be evaluated, because
the outside world fails it, or because assertions do not hold. Each cause is a constructor, and
`NodeError.message` has the wording.
-/

namespace Flowline

/-- What is wrong with the settings of a node. -/
inductive SetupFault where
  | emptyNodeId
  | unsupportedMethod (method : String)
  | noVariableName
  | zeroBatchSize
  | noUrl
  | noCommand
  | noConnection
  | unknownConnection (id : String)
  | noQuery
  | noFeedUrl
  | noIntegration
  | unknownIntegration (id : String)
  | noApiKey (id : String)
  | lockedApiKey (id reason : String)
  | noModel
  | noPrompt
deriving DecidableEq

/-- What cannot be evaluated. -/
inductive EvaluationFault where
  | path (e : QueryError)
  | xml (fault : XmlFault)
  | notJson
deriving DecidableEq

/-- How the outside world failed. -/
inductive ExternalFault where
  | timedOut (ms : Nat)
  | http (reason : String)
  | command (reason : String)
  | exitCode (code : Int)
  | signal
  | query (reason : String)
  | feed (reason : String)
  | feedStatus (status : Nat)
  | badFeed (fault : XmlFault)
  | notAFeed
  | model (reason : String)
  | modelStatus (status : Nat) (detail : String)
  | modelNotJson
  | modelSilent
deriving DecidableEq

/-- Why a node fails. -/
inductive NodeError where
  | configuration (fault : SetupFault)
  | evaluation (fault : EvaluationFault)
  | external (fault : ExternalFault)
  | assertion (failed total : Nat)
deriving DecidableEq

/-- A natural number in decimal. -/
def decimal (n : Nat) : String := String.ofList (Decimal.digitChars n)

/-- The fault in words. -/
def SetupFault.message : SetupFault → String
  | emptyNodeId => "node id must not be empty"
  | unsupportedMethod method => "unsupported HTTP method: " ++ method
  | noVariableName => "variable binding has no variable name"
  | zeroBatchSize => "batch size must be at least 1"
  | noUrl => "HTTP node has no URL"
  | noCommand => "command node has no command"
  | noConnection => "no database connection selected"
  | unknownConnection id => "unknown database connection '" ++ id ++ "'"
  | noQuery => "database node has no query"
  | noFeedUrl => "RSS node has no feed URL"
  | noIntegration => "no integration selected"
  | unknownIntegration id => "integration '" ++ id ++ "' is not configured"
  | noApiKey id => "integration '" ++ id ++ "' has no API key"
  | lockedApiKey id reason => "cannot decrypt API key of '" ++ id ++ "': " ++ reason
  | noModel => "no model configured"
  | noPrompt => "prompt node has no prompt"

/-- The fault in words; `<detail>` stands for the place where a text is no JSON. -/
def EvaluationFault.message : EvaluationFault → String
  | path e => e.message
  | xml fault => fault.message
  | notJson => "formatted output is not valid JSON: <detail>"

/-- The fault in words. -/
def ExternalFault.message : ExternalFault → String
  | timedOut ms => "timed out after " ++ decimal ms ++ " ms"
  | http reason => "HTTP request failed: " ++ reason
  | command reason => "command failed to run: " ++ reason
  | exitCode code => "command exited with code " ++ (Json.int code).write
  | signal => "command was terminated by a signal"
  | query reason => "query failed: " ++ reason
  | feed reason => "feed request failed: " ++ reason
  | feedStatus status => "feed request returned status " ++ decimal status
  | badFeed fault => "cannot parse feed: " ++ fault.message
  | notAFeed => "document is neither an RSS nor an Atom feed"
  | model reason => "AI request failed: " ++ reason
  | modelStatus status detail => "AI provider returned " ++ decimal status ++ ": " ++ detail
  | modelNotJson => "AI provider returned invalid JSON: <detail>"
  | modelSilent => "AI response contained no text"

namespace NodeError

/-- The kind of failure. -/
def kind : NodeError → String
  | configuration _ => "configuration"
  | evaluation _ => "evaluation"
  | external _ => "external"
  | assertion .. => "assertion"

/-- The failure in words. -/
def message : NodeError → String
  | configuration fault => "configuration error: " ++ fault.message
  | evaluation fault => "evaluation error: " ++ fault.message
  | external fault => "external error: " ++ fault.message
  | assertion failed total =>
    "assertion failed: " ++ decimal failed ++ " of " ++ decimal total ++ " assertions failed"

/-- A bad path as a failure. -/
def ofQuery (e : QueryError) : NodeError := evaluation (.path e)

end NodeError

end Flowline
