import AgentRun.Duration
import AgentRun.Json.Document

/-!
# Tools

A tool is known to the model by its definition. Where its work is done is its kind: in the engine,
at the client with a result that the run waits for, or at the client with nothing coming back.
-/

namespace AgentRun

/-- Where the work of a tool is done. -/
inductive ToolKind where
  /-- In the engine. -/
  | backend
  /-- At the client; the run waits for the result. -/
  | frontend
  /-- At the client, with nothing coming back. -/
  | action
  deriving DecidableEq, Repr

namespace ToolKind

/-- The name of a kind. -/
def text : ToolKind → String
  | .backend => "backend"
  | .frontend => "frontend"
  | .action => "action"

/-- The kinds by their names. -/
def words : List (String × ToolKind) :=
  [("backend", .backend), ("frontend", .frontend), ("action", .action)]

/-- The document of a kind. -/
def toJson (k : ToolKind) : Json := .str k.text

/-- Reads the document of a kind. -/
def ofJson? : Json → Option ToolKind := Json.word? words

instance : Documented ToolKind := ⟨.whole, ofJson?, toJson⟩

end ToolKind

/-- What the model is told of a tool. -/
structure ToolDefinition where
  /-- The name to call it by. -/
  name : String
  /-- What it does. -/
  description : String
  /-- The JSON schema of its arguments. -/
  parameters : Json
  deriving DecidableEq, Repr

namespace ToolDefinition

/-- The document of a definition. -/
def toJson (d : ToolDefinition) : Json :=
  .obj [("name", .str d.name), ("description", .str d.description),
    ("parameters_schema", d.parameters)]

/-- What is looked at of the document of a definition. -/
def outline : Outline :=
  .flat ["name", "description", "parameters_schema"]

/-- Reads the document of a definition. -/
def ofJson? (j : Json) : Option ToolDefinition := do
  let r ← j.record? outline.names
  return {
    name := ← r.required "name" Json.str?
    description := ← r.required "description" Json.str?
    parameters := ← r.required "parameters_schema" Json.free? }

instance : Documented ToolDefinition := ⟨outline, ofJson?, toJson⟩

end ToolDefinition

/-- Why a tool gives no result. -/
inductive ToolError where
  /-- The arguments do not fit. -/
  | invalidArguments (message : String)
  /-- The work failed. -/
  | executionFailed (message : String)
  /-- The tool is not one to be invoked. -/
  | notInvocable (message : String)
  /-- The work took longer than it may, in milliseconds. -/
  | timeout (ms : Nat)
  deriving DecidableEq, Repr

/-- The words for a tool error. -/
def ToolError.message : ToolError → String
  | .invalidArguments m => "invalid arguments: " ++ m
  | .executionFailed m => "execution failed: " ++ m
  | .notInvocable m => "not invocable: " ++ m
  | .timeout ms => "timeout after " ++ durationText ms

/-- The result of a call that produced no data. -/
def failureResult (message : String) : Json := .obj [("error", .str message), ("ok", .bool false)]

/-- Whom a tool works for. -/
structure ToolContext where
  runId : String
  agentId : String
  callId : String
  deriving DecidableEq, Repr

end AgentRun
