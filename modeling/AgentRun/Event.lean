import AgentRun.Plan.Basic

/-!
# Events

The progress of a run as its consumer sees it. Texts of one block id belong together, and one
`finish` ends the events of a run.
-/

namespace AgentRun

/-- Why a run ended. -/
inductive FinishReason where
  /-- The run came to its end, well or not. -/
  | stop
  /-- The client did not answer a frontend call in time. -/
  | timeout
  deriving DecidableEq, Repr

namespace FinishReason

/-- The name of a reason. -/
def text : FinishReason → String
  | .stop => "stop"
  | .timeout => "timeout"

/-- The reasons by their names. -/
def words : List (String × FinishReason) := [("stop", .stop), ("timeout", .timeout)]

/-- The document of a reason. -/
def toJson (r : FinishReason) : Json := .str r.text

/-- Reads the document of a reason. -/
def ofJson? : Json → Option FinishReason := Json.word? words

instance : Documented FinishReason := ⟨.whole, ofJson?, toJson⟩

end FinishReason

/-- A piece of a tool call. -/
structure CallPiece where
  /-- The id of the call. -/
  id : String
  /-- The tool, if the piece says it. -/
  name : Option String
  /-- The type that the model gives the call, or the kind of the tool that is called. -/
  callType : Option String
  /-- The text of the arguments that the piece adds. -/
  argsChunk : String
  /-- The place of the call among those of its turn. -/
  index : Nat
  deriving DecidableEq, Repr

/-- An event of a run. -/
inductive Event where
  /-- Text of the answer. -/
  | content (block text : String)
  | reasoning (block text : String)
  /-- A piece of a tool call, or the call as it goes to the client. -/
  | toolCall (piece : CallPiece)
  | toolResult (callId : String) (result : Json)
  /-- The tasks of the plan after a change. -/
  | planUpdate (plan : Plan)
  /-- A stage begins. -/
  | stage (label : String)
  /-- The run is over. -/
  | finish (reason : FinishReason)
  deriving DecidableEq, Repr

namespace CallPiece

/-- The fields of the document of a piece. -/
def fields (p : CallPiece) : Record :=
  [("id", .str p.id)] ++ Record.maybe "name" .str p.name ++
    Record.maybe "call_type" .str p.callType ++
    [("args_chunk", .str p.argsChunk), ("index", .nat p.index)]

/-- Reads the document of a piece. -/
def ofJson? (j : Json) : Option CallPiece := do
  let r ← j.record? ["id", "name", "call_type", "args_chunk", "index"]
  return {
    id := ← r.required "id" Json.str?
    name := ← r.optional "name" Json.str?
    callType := ← r.optional "call_type" Json.str?
    argsChunk := ← r.required "args_chunk" Json.str?
    index := ← r.required "index" Json.word32? }

end CallPiece

namespace Event

/-- The name of the type of an event. -/
def typeName : Event → String
  | .content _ _ => "content"
  | .reasoning _ _ => "reasoning"
  | .toolCall _ => "tool_call_chunk"
  | .toolResult _ _ => "tool_result"
  | .planUpdate _ => "plan_update"
  | .stage _ => "stage_marker"
  | .finish _ => "finish"

/-- Whether the event ends the events of a run. -/
def isFinish : Event → Bool
  | .finish _ => true
  | _ => false

/-- The text of an event that has one. -/
def text? : Event → Option String
  | .content _ text => some text
  | .reasoning _ text => some text
  | _ => none

/-- The fields of the document of an event, without its type. -/
def fields : Event → Record
  | .content block text => [("block_id", .str block), ("text", .str text)]
  | .reasoning block text => [("block_id", .str block), ("text", .str text)]
  | .toolCall p => p.fields
  | .toolResult callId result => [("tool_id", .str callId), ("result", result)]
  | .planUpdate p =>
    [("plan_id", .str p.planId), ("tasks", Json.list PlanTask.toJson p.tasks)]
  | .stage label => [("label", .str label)]
  | .finish reason => [("reason", reason.toJson)]

/-- The document of an event. -/
def toJson (e : Event) : Json := .obj (("type", .str e.typeName) :: e.fields)

/-- Reads the document of a text event. -/
def textOfJson? (make : String → String → Event) (j : Json) : Option Event := do
  let r ← j.record? ["block_id", "text"]
  return make (← r.required "block_id" Json.str?) (← r.required "text" Json.str?)

/-- Reads the document of an event. Its words stand inside a tagged record. -/
def ofJson? (j : Json) : Option Event := do
  let (type, j) ← j.tagged? "type"
  match type with
  | "content" => textOfJson? .content j
  | "reasoning" => textOfJson? .reasoning j
  | "tool_call_chunk" => (CallPiece.ofJson? j).map .toolCall
  | "tool_result" => do
    let r ← j.record? ["tool_id", "result"]
    return .toolResult (← r.required "tool_id" Json.str?) (← r.required "result" Json.free?)
  | "plan_update" => (Plan.read? (Json.innerWord? TaskStatus.words) j).map .planUpdate
  | "stage_marker" => do
    let r ← j.record? ["label"]
    return .stage (← r.required "label" Json.str?)
  | "finish" => do
    let r ← j.record? ["reason"]
    return .finish (← r.required "reason" (Json.innerWord? FinishReason.words))
  | _ => none

instance : Documented Event := ⟨.whole, ofJson?, toJson⟩

end Event

end AgentRun
