import AgentRun.Json.Printer
import AgentRun.Model.Client

/-!
# Scripted answers

A rehearsal needs a model whose answers are known beforehand. The functions here make such answers
out of texts and tool calls, in the chunks in which a provider would stream them.
-/

namespace AgentRun.Script

/-- An answer of chunks that are all there at once. -/
def ofChunks (chunks : List Chunk) (ending : StreamEnd) : Reply :=
  ⟨some 0, .stream (.immediate chunks ending)⟩

/-- A text in several pieces. -/
def texts (parts : List String) : List Chunk :=
  parts.map Chunk.ofContent ++ [Chunk.ofFinish "stop"]

/-- A reasoning and a text. -/
def reasonedText (reasoning text : String) : List Chunk :=
  [Chunk.ofReasoning reasoning, Chunk.ofContent text, Chunk.ofFinish "stop"]

/-- The first fragment of a call. -/
def firstFragment (index : Nat) (id name arguments : String) : Fragment :=
  ⟨some index, some id, some name, some "function", some arguments⟩

/-- Calls in one fragment each. -/
def calls (cs : List (String × String × Json)) : List Chunk :=
  (cs.zipIdx.map fun ((id, name, args), i) =>
    Chunk.ofFragment (firstFragment i id name args.text)) ++ [Chunk.ofFinish "tool_calls"]

/-- A call whose arguments come in several fragments, of which only the first names it. -/
def splitCall (id name : String) (parts : List String) : List Chunk :=
  (parts.zipIdx.map fun (part, i) => Chunk.ofFragment
    (if i = 0 then firstFragment 0 id name part else Fragment.ofArguments part)) ++
    [Chunk.ofFinish "tool_calls"]

/-- An answer after some time, in milliseconds. -/
def delayed (ms : Nat) (r : Reply) : Reply := { r with after := r.after.map (ms + ·) }

/-- An answer that opens and never gives a chunk. -/
def stalled : Reply := ofChunks [] .silent

/-- An answer that fails when it is opened. -/
def refused (e : GatewayError) : Reply := ⟨some 0, .refused e⟩

/-- The failure of a model that has no answer left. -/
def noResponse (index : Nat) : Reply :=
  refused (.rejected none
    ("MockModelClient: no response configured for call " ++ toString index))

/-- A queue of answers, and one that is given whenever the queue is empty. -/
structure Queue where
  /-- The answers in order. -/
  replies : List Reply
  /-- The answer when there is none left. -/
  fallback : Option Reply

/-- The answer to a request by its number, from 0. -/
def Queue.reply (q : Queue) (index : Nat) : Reply :=
  match q.replies[index]? with
  | some r => r
  | none => q.fallback.getD (noResponse index)

/-- How many answers of the queue are left after a number of requests. -/
def Queue.remaining (q : Queue) (requests : Nat) : Nat := q.replies.length - requests

/-- The model that answers from a queue. -/
def Queue.model (q : Queue) : Model := ⟨fun past _ => q.reply past.length⟩

end AgentRun.Script
