import AgentRun.Json.Document

/-!
# Messages

The conversation of a run: what the user says, what the model answers, and what its tool calls gave.
-/

namespace AgentRun

/-- A tool call as the model asked for it, with its arguments put together. -/
structure ToolCallBlock where
  /-- The id of the call. -/
  id : String
  /-- The tool. -/
  name : String
  /-- The arguments, or their text when it is not JSON. -/
  arguments : Json
  deriving DecidableEq, Repr

/-- An answer of the model. -/
structure AssistantMessage where
  text : String
  /-- The reasoning behind it, if there was any. -/
  reasoning : Option String
  toolCalls : List ToolCallBlock
  deriving DecidableEq, Repr

/-- The result of a tool call. -/
structure ToolMessage where
  callId : String
  /-- The tool. -/
  name : String
  /-- The result. -/
  content : Json
  deriving DecidableEq, Repr

/-- An entry of a conversation. -/
inductive Message where
  /-- The user speaks. -/
  | user (text : String)
  /-- The model answers. -/
  | assistant (message : AssistantMessage)
  /-- A tool call is answered. -/
  | tool (message : ToolMessage)
  deriving DecidableEq, Repr

namespace ToolCallBlock

/-- The document of a tool call. -/
def toJson (b : ToolCallBlock) : Json :=
  .obj [("id", .str b.id), ("name", .str b.name), ("arguments", b.arguments)]

/-- What is looked at of the document of a tool call. -/
def outline : Outline :=
  .flat ["id", "name", "arguments"]

/-- Reads the document of a tool call. -/
def ofJson? (j : Json) : Option ToolCallBlock := do
  let r ← j.record? outline.names
  return {
    id := ← r.required "id" Json.str?
    name := ← r.required "name" Json.str?
    arguments := ← r.required "arguments" Json.free? }

instance : Documented ToolCallBlock := ⟨outline, ofJson?, toJson⟩

end ToolCallBlock

namespace AssistantMessage

/-- An answer that is only text. -/
def ofText (text : String) : AssistantMessage := ⟨text, none, []⟩

/-- Whether the answer asks for a tool. -/
def hasToolCalls (m : AssistantMessage) : Bool := !m.toolCalls.isEmpty

/-- The fields of the document of an answer. -/
def fields (m : AssistantMessage) : Record :=
  [("text", .str m.text)] ++ Record.maybe "reasoning" .str m.reasoning ++
    Record.unlessEmpty "tool_calls" ToolCallBlock.toJson m.toolCalls

/-- The document of an answer. -/
def toJson (m : AssistantMessage) : Json := .obj m.fields

/-- What is looked at of the document of an answer. -/
def outline : Outline :=
  .record [("text", .whole), ("reasoning", .whole), ("tool_calls", .list ToolCallBlock.outline)]

/-- Reads the document of an answer. -/
def ofJson? (j : Json) : Option AssistantMessage := do
  let r ← j.record? outline.names
  return {
    text := ← r.required "text" Json.str?
    reasoning := ← r.optional "reasoning" Json.str?
    toolCalls := ← r.orElse "tool_calls" [] (Json.list? ToolCallBlock.ofJson?) }

instance : Documented AssistantMessage := ⟨outline, ofJson?, toJson⟩

end AssistantMessage

namespace ToolMessage

/-- The fields of the document of a result. -/
def fields (m : ToolMessage) : Record :=
  [("tool_call_id", .str m.callId), ("name", .str m.name), ("content", m.content)]

/-- Reads the document of a result. -/
def ofJson? (j : Json) : Option ToolMessage := do
  let r ← j.record? ["tool_call_id", "name", "content"]
  return {
    callId := ← r.required "tool_call_id" Json.str?
    name := ← r.required "name" Json.str?
    content := ← r.required "content" Json.free? }

end ToolMessage

namespace Message

/-- Who speaks. -/
def role : Message → String
  | .user _ => "user"
  | .assistant _ => "assistant"
  | .tool _ => "tool"

/-- The document of a message. -/
def toJson (m : Message) : Json :=
  .obj (("role", .str m.role) :: match m with
    | .user text => [("text", .str text)]
    | .assistant a => a.fields
    | .tool t => t.fields)

/-- Reads the document of a message. -/
def ofJson? (j : Json) : Option Message := do
  let (role, j) ← j.tagged? "role"
  match role with
  | "user" => (← j.record? ["text"]).required "text" Json.str? |>.map .user
  | "assistant" => (AssistantMessage.ofJson? j).map .assistant
  | "tool" => (ToolMessage.ofJson? j).map .tool
  | _ => none

instance : Documented Message := ⟨.whole, ofJson?, toJson⟩

end Message

end AgentRun
