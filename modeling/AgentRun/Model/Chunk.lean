import AgentRun.Json.Document

/-!
# Chunks of a model stream

A model answers in chunks, of which each may carry a piece of the text, a piece of the reasoning,
fragments of tool calls and the reason why the answer ends.
-/

namespace AgentRun

/-- A fragment of a tool call. Only the first fragment of a call is sure to carry its id and its
tool. -/
structure Fragment where
  /-- The place of the call, as the model counts. -/
  index : Option Nat
  /-- The id of the call. -/
  id : Option String
  /-- The tool. -/
  name : Option String
  /-- The type that the model gives the call. -/
  callType : Option String
  /-- The text of the arguments that the fragment adds. -/
  arguments : Option String
  deriving DecidableEq, Repr

/-- What an answer cost. -/
structure Usage where
  /-- The tokens of the request. -/
  inputTokens : Nat
  /-- The tokens of the answer. -/
  outputTokens : Nat
  deriving DecidableEq, Repr

/-- A chunk of an answer. -/
structure Chunk where
  /-- A piece of the text. -/
  content : Option String
  /-- A piece of the reasoning. -/
  reasoning : Option String
  toolCalls : List Fragment
  /-- Why the answer ends. -/
  finishReason : Option String
  /-- What the answer cost. -/
  usage : Option Usage
  deriving DecidableEq, Repr

namespace Fragment

/-- A fragment that only adds to the arguments. -/
def ofArguments (text : String) : Fragment := ⟨none, none, none, none, some text⟩

/-- The document of a fragment. -/
def toJson (f : Fragment) : Json :=
  .obj (Record.maybe "index" .nat f.index ++ Record.maybe "id" .str f.id ++
    Record.maybe "name" .str f.name ++ Record.maybe "type" .str f.callType ++
    Record.maybe "arguments" .str f.arguments)

/-- What is looked at of the document of a fragment. -/
def outline : Outline :=
  .flat ["index", "id", "name", "type", "arguments"]

/-- Reads the document of a fragment. -/
def ofJson? (j : Json) : Option Fragment := do
  let r ← j.record? outline.names
  return {
    index := ← r.optional "index" Json.word32?
    id := ← r.optional "id" Json.str?
    name := ← r.optional "name" Json.str?
    callType := ← r.optional "type" Json.str?
    arguments := ← r.optional "arguments" Json.str? }

instance : Documented Fragment := ⟨outline, ofJson?, toJson⟩

end Fragment

namespace Usage

/-- The document of a cost. -/
def toJson (u : Usage) : Json :=
  .obj [("input_tokens", .nat u.inputTokens), ("output_tokens", .nat u.outputTokens)]

/-- What is looked at of the document of a cost. -/
def outline : Outline :=
  .flat ["input_tokens", "output_tokens"]

/-- Reads the document of a cost. -/
def ofJson? (j : Json) : Option Usage := do
  let r ← j.record? outline.names
  return {
    inputTokens := ← r.required "input_tokens" Json.word32?
    outputTokens := ← r.required "output_tokens" Json.word32? }

instance : Documented Usage := ⟨outline, ofJson?, toJson⟩

end Usage

namespace Chunk

/-- The chunk that carries nothing. -/
def nothing : Chunk := ⟨none, none, [], none, none⟩

/-- A chunk with a piece of the text. -/
def ofContent (text : String) : Chunk := { nothing with content := some text }

/-- A chunk with a piece of the reasoning. -/
def ofReasoning (text : String) : Chunk := { nothing with reasoning := some text }

/-- A chunk with a fragment of a tool call. -/
def ofFragment (f : Fragment) : Chunk := { nothing with toolCalls := [f] }

/-- A chunk that ends an answer. -/
def ofFinish (reason : String) : Chunk := { nothing with finishReason := some reason }

/-- Whether a piece of text is missing or empty. -/
def isVoid (text : Option String) : Bool := (text.map fun t => t == "").getD true

/-- Whether the chunk carries neither text nor a fragment. -/
def isEmpty (c : Chunk) : Bool := isVoid c.content && isVoid c.reasoning && c.toolCalls.isEmpty

/-- The document of a chunk. -/
def toJson (c : Chunk) : Json :=
  .obj (Record.maybe "content" .str c.content ++ Record.maybe "reasoning" .str c.reasoning ++
    Record.unlessEmpty "tool_calls" Fragment.toJson c.toolCalls ++
    Record.maybe "finish_reason" .str c.finishReason ++
    Record.maybe "usage" Usage.toJson c.usage)

/-- What is looked at of the document of a chunk. -/
def outline : Outline :=
  .record [("content", .whole), ("reasoning", .whole), ("tool_calls", .list Fragment.outline),
    ("finish_reason", .whole), ("usage", Usage.outline)]

/-- Reads the document of a chunk. -/
def ofJson? (j : Json) : Option Chunk := do
  let r ← j.record? outline.names
  return {
    content := ← r.optional "content" Json.str?
    reasoning := ← r.optional "reasoning" Json.str?
    toolCalls := ← r.orElse "tool_calls" [] (Json.list? Fragment.ofJson?)
    finishReason := ← r.optional "finish_reason" Json.str?
    usage := ← r.optional "usage" Usage.ofJson? }

instance : Documented Chunk := ⟨outline, ofJson?, toJson⟩

end Chunk

end AgentRun
