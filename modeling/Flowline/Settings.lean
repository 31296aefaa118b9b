import Flowline.Json.Encode
import Flowline.Number.Numeral
import Flowline.Text.Blank
import Flowline.Text.Search

/-!
# Settings

The settings of the server come from the environment. A number that cannot be read counts as
missing.
-/

namespace Flowline

/-- The settings: where to listen, the limits of the engine, and the databases. -/
structure Settings where
  host : String
  port : Nat
  nodeTimeoutMs : Nat
  historyLimit : Nat
  dataDir : String
  connections : Entries String

/-- The id and the path of an entry `id=path`, if both are there. -/
def connection? (entry : List Char) : Option (String × String) := do
  let (id, path) ← splitFirst? '=' entry
  let id := trimChars id
  let path := trimChars path
  if id = [] ∨ path = [] then none else some (String.ofList id, String.ofList path)

/-- The database connections in a list of entries, with commas between them. An entry without an
id or a path counts for nothing, and of several entries for one id the last one counts. -/
def readConnections (spec : String) : Entries String :=
  Entries.ofList ((splitEach ',' spec.toList).filterMap connection?)

namespace Settings

/-- The settings that the variables of an environment give. -/
def ofVariables (lookup : String → Option String) : Settings :=
  let number (name : String) (limit default : Nat) : Nat :=
    ((lookup name).bind (readNat? limit)).getD default
  { host := (lookup "HOST").getD "0.0.0.0"
    port := number "PORT" maxWord16 3004
    nodeTimeoutMs := number "NODE_TIMEOUT_MS" maxWord64 30000
    historyLimit := number "HISTORY_LIMIT" maxWord64 100
    dataDir := (lookup "DATA_DIR").getD "data"
    connections := ((lookup "DB_CONNECTIONS").map readConnections).getD [] }

def encode (s : Settings) : Json := .obj [
  ("server", .obj [("host", .str s.host), ("port", .ofNat s.port)]),
  ("engine", .obj [("node_timeout_ms", .ofNat s.nodeTimeoutMs),
    ("history_limit", .ofNat s.historyLimit)]),
  ("storage", .obj [("data_dir", .str s.dataDir), ("connections", .ofStrings s.connections)])]

end Settings

end Flowline
