import AgentRun.Tool.Basic

/-!
# The work of backend tools

A backend tool is invoked with arguments and a context. Here the bodies of all tools of an engine
are one function of the invocation and of the invocations before it, which gives the time the body
takes and what comes of it.
-/

namespace AgentRun

/-- An invocation of a backend tool. -/
structure Invocation where
  /-- The name of the registered tool. -/
  tool : String
  arguments : Json
  /-- Whom it is for. -/
  context : ToolContext
  deriving DecidableEq, Repr

/-- What comes of an invocation. -/
inductive ToolOutcome where
  | value (result : Json)
  | failed (error : ToolError)
  /-- The body broke down, with a text if it left one. -/
  | panicked (message : Option String)
  deriving DecidableEq, Repr

/-- The end of an invocation. -/
structure ToolReply where
  /-- The time in milliseconds that the body takes, `none` if it never ends. -/
  takes : Option Nat
  /-- What comes of it. -/
  outcome : ToolOutcome
  deriving DecidableEq, Repr

/-- The bodies of the tools of an engine: what an invocation comes to, given those before it. -/
structure ToolBodies where
  /-- The end of an invocation. -/
  invoke : List Invocation → Invocation → ToolReply

/-- The result of a call from what came of its invocation. -/
def ToolOutcome.result : ToolOutcome → Json
  | .value result => result
  | .failed error => failureResult error.message
  | .panicked message => failureResult ("tool panicked: " ++ message.getD "unknown panic")

end AgentRun
