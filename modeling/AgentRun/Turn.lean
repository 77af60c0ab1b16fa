import AgentRun.Event
import AgentRun.Json.Reader
import AgentRun.Message
import AgentRun.Model.Chunk

/-!
# Turns

The chunks of an answer are put together into a `Turn`, while the events for the consumer are made
from them. Text and reasoning each have at most one open block; a fragment of a tool call closes
both, and so do the end of the answer and the start of a stage. A fragment belongs to the call of
its id; without an id, to the call that was opened last.
-/

namespace AgentRun

/-- A call as far as its fragments are there. -/
structure OpenCall where
  id : String
  /-- The tool, or nothing yet. -/
  name : String
  /-- The text of the arguments so far. -/
  arguments : String
  deriving DecidableEq, Repr

/-- An answer as far as its chunks are there. -/
structure Assembly where
  /-- The open block of text. -/
  contentBlock : Option String
  /-- The open block of reasoning. -/
  reasoningBlock : Option String
  text : String
  reasoning : String
  /-- The calls so far, in the order of their first fragments. -/
  calls : List OpenCall
  /-- Why the answer ends, as far as it is known. -/
  finishReason : Option String
  /-- How many ids have been minted. -/
  minted : Nat
  deriving DecidableEq, Repr

/-- A tool call put together. -/
structure Call where
  id : String
  /-- The tool. -/
  name : String
  /-- The text of the arguments. -/
  rawArguments : String
  /-- The place among the calls of the turn. -/
  index : Nat
  deriving DecidableEq, Repr

/-- An answer put together. -/
structure Turn where
  text : String
  reasoning : String
  calls : List Call
  /-- Why the answer ended. -/
  finishReason : Option String
  deriving DecidableEq, Repr

/-- The arguments of a call. A blank text stands for no arguments. -/
def Call.arguments (c : Call) : Except Json.SyntaxError Json :=
  if Text.isBlankText c.rawArguments then .ok .empty else Json.readFree c.rawArguments

/-- The arguments of a call, or their text where it is not JSON. -/
def Call.shownArguments (c : Call) : Json :=
  match c.arguments with
  | .ok args => args
  | .error _ => .str c.rawArguments

namespace Turn

/-- Whether the turn asks for a tool. -/
def hasCalls (t : Turn) : Bool := !t.calls.isEmpty

/-- The turn with only its first calls. -/
def keep (t : Turn) (most : Nat) : Turn := { t with calls := t.calls.take most }

/-- The calls that are lost when only the first are kept. -/
def dropped (t : Turn) (most : Nat) : List Call := t.calls.drop most

/-- Whether the turn says nothing at all. -/
def isSilent (t : Turn) : Bool := t.text == "" && t.reasoning == "" && t.calls.isEmpty

/-- The turn as an entry of the conversation. -/
def message (t : Turn) : AssistantMessage where
  text := t.text
  reasoning := if t.reasoning = "" then none else some t.reasoning
  toolCalls := t.calls.map fun c => ⟨c.id, c.name, c.shownArguments⟩

end Turn

namespace Assembly

/-- Nothing yet, with a count of the ids minted before. -/
def start (minted : Nat) : Assembly := ⟨none, none, "", "", [], none, minted⟩

/-- Whether a block of text is open. -/
def hasOpenBlock (a : Assembly) : Bool := a.contentBlock.isSome || a.reasoningBlock.isSome

/-- Closes the open blocks. -/
def closeBlocks (a : Assembly) : Assembly :=
  { a with contentBlock := none, reasoningBlock := none }

/-- A piece of reasoning. -/
def pushReasoning (supply : Supply) (text : String) (a : Assembly) : Event × Assembly :=
  match a.reasoningBlock with
  | some block => (.reasoning block text, { a with reasoning := a.reasoning ++ text })
  | none =>
    let block := IdKind.block.mint supply a.minted
    (.reasoning block text, { a with
      reasoning := a.reasoning ++ text, reasoningBlock := some block, minted := a.minted + 1 })

/-- A piece of text. -/
def pushContent (supply : Supply) (text : String) (a : Assembly) : Event × Assembly :=
  match a.contentBlock with
  | some block => (.content block text, { a with text := a.text ++ text })
  | none =>
    let block := IdKind.block.mint supply a.minted
    (.content block text, { a with
      text := a.text ++ text, contentBlock := some block, minted := a.minted + 1 })

/-- The id of the call that a fragment belongs to, and the count of minted ids afterwards: its own
id, else that of the last call, else a new one. -/
def callId (supply : Supply) (f : Fragment) (a : Assembly) : String × Nat :=
  match f.id.filter fun id => id != "" with
  | some id => (id, a.minted)
  | none =>
    match a.calls.getLast? with
    | some c => (c.id, a.minted)
    | none => (IdKind.call.mint supply a.minted, a.minted + 1)

/-- A call with a fragment added. The first name that is not blank is the name of the call. -/
def OpenCall.add (f : Fragment) (c : OpenCall) : OpenCall where
  id := c.id
  name := if c.name = "" then Text.trim (f.name.getD "") else c.name
  arguments := c.arguments ++ f.arguments.getD ""

/-- The calls with a fragment added to the call of an id, which is opened if it is new, and the
place of that call. -/
def addTo (id : String) (f : Fragment) : List OpenCall → List OpenCall × Nat
  | [] => ([OpenCall.add f ⟨id, "", ""⟩], 0)
  | c :: rest =>
    if c.id = id then (OpenCall.add f c :: rest, 0)
    else
      let (calls, place) := addTo id f rest
      (c :: calls, place + 1)

/-- A fragment of a tool call. -/
def pushFragment (supply : Supply) (f : Fragment) (a : Assembly) : Event × Assembly :=
  let (id, minted) := a.callId supply f
  let (calls, place) := addTo id f a.calls
  (.toolCall ⟨id, f.name, f.callType, f.arguments.getD "", place⟩,
    { a with calls := calls, minted := minted })

/-- Several fragments of tool calls. -/
def pushFragments (supply : Supply) : List Fragment → Assembly → List Event × Assembly
  | [], a => ([], a)
  | f :: rest, a =>
    let (event, a) := a.pushFragment supply f
    let (events, a) := pushFragments supply rest a
    (event :: events, a)

/-- A piece of text that may be missing or empty. -/
def pushText (push : String → Assembly → Event × Assembly) (text : Option String)
    (a : Assembly) : List Event × Assembly :=
  match text.filter fun t => t != "" with
  | some t => ([(push t a).1], (push t a).2)
  | none => ([], a)

/-- A chunk: its reasoning, its text and then its fragments. -/
def push (supply : Supply) (c : Chunk) (a : Assembly) : List Event × Assembly :=
  let (thought, a) := a.pushText (pushReasoning supply) c.reasoning
  let (said, a) := a.pushText (pushContent supply) c.content
  let (called, a) :=
    if c.toolCalls.isEmpty then ([], a) else a.closeBlocks.pushFragments supply c.toolCalls
  (thought ++ said ++ called, { a with finishReason := c.finishReason.or a.finishReason })

/-- The turn that the chunks made. -/
def turn (a : Assembly) : Turn where
  text := a.text
  reasoning := a.reasoning
  calls := a.calls.zipIdx.map fun (c, i) => ⟨c.id, c.name, c.arguments, i⟩
  finishReason := a.finishReason

/-- What is left for the next answer: only the count of minted ids. -/
def next (a : Assembly) : Assembly := start a.minted

end Assembly

end AgentRun
