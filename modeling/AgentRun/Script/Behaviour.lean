import AgentRun.Tool.Body
import AgentRun.Tool.Registry

/-!
# Scripted tools

The tools of a rehearsal behave as a script says: the nth invocation of a tool follows the nth
behaviour of its script, and the last one from then on.
-/

namespace AgentRun.Script

/-- What a scripted tool does when it is invoked. -/
inductive Behaviour where
  /-- It gives its arguments back. -/
  | echo
  /-- It gives its arguments back in a field of that name. -/
  | wrap
  /-- It tells whom it works for. -/
  | context
  /-- It gives a value. -/
  | returns (value : Json)
  | fails (error : ToolError)
  /-- It breaks down, with a text or without. -/
  | panics (message : Option String)
  /-- It never ends. -/
  | hangs
  deriving DecidableEq, Repr

/-- What a behaviour makes of an invocation. -/
def Behaviour.reply (b : Behaviour) (i : Invocation) : ToolReply :=
  match b with
  | .echo => ⟨some 0, .value i.arguments⟩
  | .wrap => ⟨some 0, .value (.obj [("echo", i.arguments)])⟩
  | .context => ⟨some 0, .value (.obj [("agent_id", .str i.context.agentId),
      ("call_id", .str i.context.callId), ("run_id", .str i.context.runId)])⟩
  | .returns value => ⟨some 0, .value value⟩
  | .fails error => ⟨some 0, .failed error⟩
  | .panics message => ⟨some 0, .panicked message⟩
  | .hangs => ⟨none, .panicked none⟩

/-- A scripted tool. -/
structure ScriptedTool where
  tool : Tool
  /-- What it does, invocation by invocation. -/
  behaviours : List Behaviour

/-- The registry of scripted tools. -/
def registry (tools : List ScriptedTool) : ToolRegistry :=
  ToolRegistry.ofList (tools.map ScriptedTool.tool)

/-- The scripted tool that is registered under the name of an invocation; of tools that take each
other's place the last. -/
def scriptFor? (tools : List ScriptedTool) (name : String) : Option ScriptedTool :=
  (tools.filter fun t => toolKey t.tool.definition.name == toolKey name).getLast?

/-- The bodies of scripted tools. -/
def bodies (tools : List ScriptedTool) : ToolBodies where
  invoke past i :=
    let count := (past.filter fun j => toolKey j.tool == toolKey i.tool).length
    let script := ((scriptFor? tools i.tool).map ScriptedTool.behaviours).getD []
    match script[count]? with
    | some b => b.reply i
    | none => (script.getLast?.getD .echo).reply i

end AgentRun.Script
