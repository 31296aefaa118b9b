import Flowline.Json.Basic

/-!
# Calls on the outside world

What nodes ask of the services, and what these answer. A service that fails answers with a
message.
-/

namespace Flowline

/-- An HTTP request. -/
structure HttpRequest where
  method : String
  url : String
  headers : List (String × String)
  query : List (String × String)
  body : Option String
  timeoutMs : Nat

/-- The response to an HTTP request; the headers are in the order of their names. -/
structure HttpResponse where
  status : Nat
  statusText : String
  headers : List (String × String)
  body : String

namespace HttpResponse

/-- The status reports success. -/
def isSuccess (r : HttpResponse) : Bool := 200 ≤ r.status && r.status < 300

/-- The content type. -/
def contentType? (r : HttpResponse) : Option String := r.headers.lookup "content-type"

end HttpResponse

/-- A shell command to run. -/
structure CommandRequest where
  command : String
  cwd : Option String
  env : List (String × String)
  timeoutMs : Nat

/-- What a shell command left; no exit code if a signal ended it. -/
structure CommandOutput where
  stdout : String
  stderr : String
  exitCode : Option Int

/-- The command ended well. -/
def CommandOutput.isSuccess (o : CommandOutput) : Bool := o.exitCode == some 0

/-- An SQL query with positional parameters. -/
structure SqlQuery where
  connection : String
  sql : String
  params : List Json

/-- A call on a service. -/
inductive ServiceCall where
  | http (request : HttpRequest)
  | exec (request : CommandRequest)
  | query (query : SqlQuery)

/-- The answer of a service. -/
inductive ServiceReply where
  | http (response : HttpResponse)
  | exec (output : CommandOutput)
  | rows (rows : List Json)
  | failed (message : String)

/-- What can be asked without waiting: which connections there are, and the keys. -/
structure Directory where
  hasConnection : String → Bool
  decrypt : String → Except String String

/-- How a service treats a call: how long it waits, whether it then asks to cancel the run and
glances at the engine, and what it replies. -/
structure Treatment where
  delayMs : Nat := 0
  cancels : Bool := false
  probes : Bool := false
  reply : ServiceReply

/-- The services. -/
structure Services where
  directory : Directory
  treat : ServiceCall → Treatment

end Flowline
