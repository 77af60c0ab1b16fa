import AgentRun.Agent
import AgentRun.Message
import AgentRun.Tool.Basic

/-!
# Model requests

Everything that a model is given for one answer.
-/

namespace AgentRun

/-- A request for one answer of a model. -/
structure ModelRequest where
  model : String
  systemPrompt : String
  /-- The conversation so far. -/
  history : List Message
  /-- What the engine asks for on top of it. -/
  directive : Option String
  /-- The tools that are offered. -/
  tools : List ToolDefinition
  /-- How they may be used. -/
  toolChoice : ToolChoice
  /-- The settings for the generation. -/
  compute : ComputePolicy
  deriving DecidableEq, Repr

/-- The names of the tools that are offered. -/
def ModelRequest.toolNames (r : ModelRequest) : List String := r.tools.map ToolDefinition.name

end AgentRun
