import AgentRun.Json.Record
import AgentRun.Script.Behaviour
import AgentRun.Script.Reply

/-!
# Scripts as documents

A rehearsal is written down in documents: what its tools do and what its model answers. What a
document leaves out has a default, and so has what it says in no known way.
-/

namespace AgentRun.Script

/-- A failure of the model. -/
def gatewayError (j : Json) : GatewayError :=
  let message := j.textPart "message" ""
  match j.textPart "kind" "" with
  | "rate_limited" => .rateLimited ((j.part? "retry_after_ms").bind Json.word64?)
  | "unavailable" => .unavailable message
  | "stream_interrupted" => .streamInterrupted message
  | "malformed_chunk" => .malformedChunk message
  | "timeout" => .timeout (j.natPart "ms" 0)
  | _ => .rejected ((j.part? "status").bind Json.word16?) message

/-- A failure of a tool. -/
def toolError (j : Json) : ToolError :=
  let message := j.textPart "message" ""
  match j.textPart "kind" "" with
  | "invalid_arguments" => .invalidArguments message
  | "not_invocable" => .notInvocable message
  | "timeout" => .timeout (j.natPart "ms" 0)
  | _ => .executionFailed message

/-- What a tool does: a word, or an object with a value to give, a failure or a text to break down
with. -/
def behaviour (j : Json) : Behaviour :=
  match j with
  | .str "wrap" => .wrap
  | .str "context" => .context
  | .str "panic_str" => .panics (some "static text")
  | .str "panic_any" => .panics none
  | .str "hang" => .hangs
  | j =>
    match j.get? "return", j.get? "fail", j.get? "panic" with
    | some value, _, _ => .returns value
    | _, some error, _ => .fails (toolError error)
    | _, _, some message => .panics (some (message.str?.getD ""))
    | _, _, _ => .echo

/-- A scripted tool. What it does is one behaviour or a list of them. -/
def tool (j : Json) : ScriptedTool where
  tool := {
    definition := {
      name := j.textPart "name" ""
      description := j.textPart "description" "test tool"
      parameters := (j.part? "schema").getD (.obj [("type", .str "object")]) }
    kind := ((j.part? "kind").bind ToolKind.ofJson?).getD .backend }
  behaviours := match j.part? "do" with
    | some (.arr items) => items.map behaviour
    | some one => [behaviour one]
    | none => [.echo]

/-- A call as a list of its id, its tool and its arguments. -/
def call? : Json → Option (String × String × Json)
  | .arr [.str id, .str name, args] => some (id, name, args)
  | _ => none

/-- An answer that is told by its chunks, and how it ends behind them. -/
def chunks (cs : List Json) (ending : Option Json) : Reply :=
  ofChunks (cs.filterMap Chunk.ofJson?) (match ending with
    | none => .done
    | some (.str _) => .silent
    | some error => .failed (gatewayError error))

/-- An answer at once, by the only field that tells it. An unknown one never gives a chunk. -/
def promptReply (j : Json) : List (String × Json) → Reply
  | [] => stalled
  | (key, value) :: rest =>
    match key, value with
    | "text", .str text => ofChunks (texts [text]) .done
    | "texts", .arr parts => ofChunks (texts (parts.filterMap Json.str?)) .done
    | "reasoned", .arr [.str reasoning, .str text] => ofChunks (reasonedText reasoning text) .done
    | "call", c => ofChunks (calls (call? c).toList) .done
    | "calls", .arr cs => ofChunks (calls (cs.filterMap call?)) .done
    | "split", .arr [.str id, .str name, .arr parts] =>
      ofChunks (splitCall id name (parts.filterMap Json.str?)) .done
    | "chunks", .arr cs => chunks cs (j.part? "then")
    | "error", error => refused (gatewayError error)
    | "panic", message => ⟨some 0, .panicked (message.str?.getD "")⟩
    | _, _ => promptReply j rest

mutual

/-- The answer that a document tells, at once or after a delay. -/
def reply : Json → Reply
  | .obj fields =>
    match (Json.obj fields).part? "delay_ms" with
    | some ms => delayed ((ms.word64?).getD 0) (laterReply fields)
    | none => promptReply (.obj fields) fields
  | .null => stalled
  | .bool _ => stalled
  | .num _ => stalled
  | .str _ => stalled
  | .arr _ => stalled
termination_by structural j => j

/-- The answer behind a delay, out of the fields of its document. -/
def laterReply : List (String × Json) → Reply
  | [] => stalled
  | f :: rest => if f.1 = "then" then fieldReply f else laterReply rest
termination_by structural fields => fields

/-- The answer in a field. -/
def fieldReply : String × Json → Reply
  | (_, j) => reply j
termination_by structural field => field

end

/-- The answers of a model: those in the field `script` and, when they are used up, the one in the
field `fallback`. -/
def queue (j : Json) : Queue where
  replies := (j.itemsPart "script").map reply
  fallback := (j.part? "fallback").map reply

end AgentRun.Script
