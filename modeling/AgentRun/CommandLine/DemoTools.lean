import AgentRun.Tool.Body
import AgentRun.Tool.Registry

/-!
# The built-in tools

Four tools to try the engine with: the date of today, an echo, a question to the user and a
notification.
-/

namespace AgentRun.CommandLine

/-- The date and the time of today, as the tool of that name gives them. -/
structure Today where
  date : String
  /-- The date with the time. -/
  timestamp : String
  deriving DecidableEq, Repr

/-- A schema of an object with some more fields, which stand in ascending order before the type. -/
def objectSchema (fields : Record) : Json := .obj (fields ++ [("type", .str "object")])

/-- A schema of one string of a name. -/
def textField (name : String) : Json := .obj [(name, .obj [("type", .str "string")])]

/-- The built-in tools. -/
def demoTools : List Tool := [
  ⟨⟨"today", "Current UTC date and time", objectSchema [("properties", .empty)]⟩, .backend⟩,
  ⟨⟨"echo", "Return the arguments unchanged", objectSchema []⟩, .backend⟩,
  ⟨⟨"confirm", "Ask the user to approve an action",
    objectSchema [("properties", textField "question"), ("required", .arr [.str "question"])]⟩,
    .frontend⟩,
  ⟨⟨"notify", "Show a notification in the client",
    objectSchema [("properties", textField "text")]⟩, .action⟩]

/-- The bodies of the built-in tools. -/
def demoBodies (today : Today) : ToolBodies where
  invoke _ i :=
    if i.tool = "today" then
      ⟨some 0, .value (.obj [("date", .str today.date), ("timestamp", .str today.timestamp)])⟩
    else if i.tool = "echo" then ⟨some 0, .value (.obj [("echo", i.arguments)])⟩
    else ⟨some 0, .failed (.notInvocable i.tool)⟩

end AgentRun.CommandLine
