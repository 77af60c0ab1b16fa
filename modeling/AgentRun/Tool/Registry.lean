import AgentRun.Text.Blank
import AgentRun.Text.Lower
import AgentRun.Tool.Basic

/-!
# The tool registry

The tools of an engine by their names. A name is looked up without the blanks around it and in
lower case; of two tools registered under such a name the later one stays.
-/

namespace AgentRun

/-- A registered tool. -/
structure Tool where
  /-- What the model is told of it. -/
  definition : ToolDefinition
  /-- Where its work is done. -/
  kind : ToolKind
  deriving DecidableEq, Repr

/-- The form of a name under which a tool is registered. -/
def toolKey (name : String) : String := Text.lower (Text.trim name)

/-- The registered tools, each under the form of its name, the latest first. -/
structure ToolRegistry where
  /-- The tools by the forms of their names. -/
  entries : List (String × Tool)
  deriving DecidableEq, Repr

namespace ToolRegistry

/-- No tools. -/
def empty : ToolRegistry := ⟨[]⟩

/-- Registers a tool, in the place of one under the same form of the name. -/
def register (r : ToolRegistry) (t : Tool) : ToolRegistry :=
  let key := toolKey t.definition.name
  ⟨(key, t) :: r.entries.filter fun e => e.1 != key⟩

/-- Registers tools in order. -/
def ofList (tools : List Tool) : ToolRegistry := tools.foldl register empty

/-- The tool of a name. -/
def get? (r : ToolRegistry) (name : String) : Option Tool := r.entries.lookup (toolKey name)

/-- The definitions of the named tools, in order; names that are not registered are passed over. -/
def definitions (r : ToolRegistry) (names : List String) : List ToolDefinition :=
  names.filterMap fun name => (r.get? name).map Tool.definition

end ToolRegistry

end AgentRun
