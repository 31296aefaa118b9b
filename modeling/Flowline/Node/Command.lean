import Flowline.Node.Context

/-!
# Shell commands

The command, its directory and its environment are templates. An exit code other than zero is a
failure that has data.
-/

namespace Flowline

namespace CommandConfig

/-- What the command left as output. -/
def output (c : CommandConfig) (o : CommandOutput) : Outcome :=
  let data := Json.obj [
    ("stdout", .str o.stdout),
    ("stderr", .str o.stderr),
    ("exitCode", (o.exitCode.map Json.int).getD .null)]
  if o.isSuccess then do
    return { data, «variables» := ← VariableBinding.writes c.binding data "stdout" }
  else
    let fault : ExternalFault := (o.exitCode.map .exitCode).getD .signal
    .ok { data, failure := some (.external fault) }

/-- Run the command. -/
def plan (c : CommandConfig) (ctx : NodeContext) : Plan := .orFail do
  if trim c.command = "" then throw (.configuration .noCommand)
  let command ← ctx.render c.command
  let cwd ← match NodeContext.givenPath? c.cwd with
    | some cwd => some <$> ctx.render cwd
    | none => pure none
  let env ← ctx.renderPairs c.env
  return .exec { command, cwd, env, timeoutMs := ctx.timeoutMs } fun
    | .ok output => c.output output
    | .error reason => .error (.external (.command reason))

end CommandConfig

end Flowline
