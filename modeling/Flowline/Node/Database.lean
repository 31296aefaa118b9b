import Flowline.Json.Encode
import Flowline.Node.Context

/-!
# SQL queries

The query and its parameters are templates, and the parameters keep their types.
-/

namespace Flowline

namespace DatabaseConfig

/-- Send the query. -/
def plan (c : DatabaseConfig) (ctx : NodeContext) : Plan := .orFail do
  let connection := trim c.connectionId
  if connection = "" then throw (.configuration .noConnection)
  if !ctx.directory.hasConnection connection then
    throw (.configuration (.unknownConnection connection))
  if trim c.query = "" then throw (.configuration .noQuery)
  let sql ← ctx.render c.query
  let params ← c.parameters.mapM ctx.renderValue
  return .query { connection, sql, params } fun
    | .ok rows => .ok { data := .obj [("rowCount", .ofNat rows.length), ("rows", .arr rows)] }
    | .error reason => .error (.external (.query reason))

end DatabaseConfig

end Flowline
