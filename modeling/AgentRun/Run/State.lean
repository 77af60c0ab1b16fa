import AgentRun.Budget
import AgentRun.Channel
import AgentRun.Config
import AgentRun.Model.Client
import AgentRun.Rendezvous
import AgentRun.Template
import AgentRun.Tool.Body
import AgentRun.Tool.Registry
import AgentRun.Tool.Workers
import AgentRun.Turn

/-!
# The state of a run

A run is a function of its surroundings (`Env`), which say what the model, the tools and the client
do, and of a `State`, on a clock of whole milliseconds that only moves while the run waits. What
happens is written into the journal of the state, in order, so that statements about a run are
statements about its journal. `RunM` is the shape of every part of a run: it changes the state and
either gives a value or halts the run.
-/

namespace AgentRun

/-- What a client does on its own accord. -/
inductive ClientAct where
  /-- It submits a payload for a call of a run. The ticket tells its submissions apart. -/
  | submit (ticket : Nat) (key : WaitKey) (payload : Json)
  | leave
  deriving DecidableEq, Repr

/-- An act with the time in milliseconds that passes before it; `none` is done on the spot. -/
structure Intent where
  /-- The time that passes. -/
  after : Option Nat
  act : ClientAct
  deriving DecidableEq, Repr

/-- A client: what it does on each event that it takes. -/
structure Client where
  /-- The acts on the latest of the events that it has taken from the run of an id. Before it takes
  any it is asked with none. -/
  react : String → List Event → List Intent
  /-- How long it stays without an event, in milliseconds, `none` for ever. -/
  patience : Option Nat

/-- A client that takes every event and does nothing. -/
def Client.reader : Client := ⟨fun _ _ => [], none⟩

namespace Run

/-- Something that happened in a run. -/
inductive Entry where
  /-- A model call was admitted, at a time. -/
  | modelCall (time : Nat) (request : ModelRequest)
  /-- A request went to the model, at a time. -/
  | attempt (time : Nat) (request : ModelRequest)
  /-- The answer to a request was put together. -/
  | answer (request : ModelRequest) (turn : Turn)
  /-- An event went to the consumer. -/
  | event (e : Event)
  /-- A call was taken up. -/
  | dispatch (call : Call)
  /-- A backend tool was invoked. -/
  | invocation (i : Invocation)
  /-- A wait for the client began. -/
  | waitBegan (key : WaitKey)
  /-- The wait is over. -/
  | waitEnded (key : WaitKey)
  /-- The client submitted something. -/
  | submission (ticket : Nat) (key : WaitKey) (payload : Json) (ack : SubmitAck)
  deriving DecidableEq, Repr

/-- An act that the client will do at a time. -/
structure Appointment where
  time : Nat
  act : ClientAct
  deriving DecidableEq, Repr

/-- What outlives a run: the clock, the waits, the workers, and all that the model and the tools
were asked. -/
structure World where
  /-- The time in milliseconds. -/
  now : Nat
  /-- The waits for clients. -/
  rendezvous : Rendezvous
  /-- The workers of the backend tools. -/
  workers : Workers
  /-- The requests that the model had. -/
  requests : List ModelRequest
  /-- The invocations of backend tools. -/
  invocations : List Invocation
  /-- How many names were minted. -/
  minted : Nat
  deriving DecidableEq, Repr

/-- The state of a run. -/
structure State where
  /-- What outlives the run. Its count of minted names is that at the start of the run. -/
  world : World
  /-- The way to the consumer of the events. -/
  channel : Channel
  /-- What the client will do, by time. -/
  agenda : List Appointment
  /-- When the client took its latest event. -/
  lastTaken : Nat
  /-- Whether the client left out of impatience. -/
  gaveUp : Bool
  /-- How many steps the run took since it last waited or gave way. -/
  stretch : Nat
  /-- The conversation. -/
  history : List Message
  /-- The calls with their results, the oldest first. -/
  records : List ToolRecord
  plan : Plan
  /-- What is spent of the budget. -/
  spending : Spending
  /-- The answer that is being put together, with the count of minted names. -/
  assembly : Assembly
  /-- What happened, the oldest first. -/
  journal : List Entry
  deriving DecidableEq, Repr

/-- What surrounds a run. -/
structure Env where
  /-- The supply of UUIDs. -/
  supply : Supply
  model : Model
  /-- The registered tools. -/
  tools : ToolRegistry
  /-- The bodies of the backend tools. -/
  bodies : ToolBodies
  client : Client
  /-- How long the run waits for its client, in milliseconds. -/
  frontendTimeoutMs : Nat
  runId : String
  agent : Agent
  /-- The catalog of the agent's skills. -/
  catalog : Option String

/-- Why a run goes no further. -/
inductive Halt where
  /-- An error ended it. -/
  | failed (error : EngineError)
  /-- A breakdown ended it. -/
  | panicked (message : String)
  /-- It waits for something that never comes. -/
  | stuck
  /-- It was not followed any further. -/
  | cut
  deriving DecidableEq, Repr

/-- A part of a run. -/
abbrev RunM := ExceptT Halt (StateM State)

/-- Ends the run with an error. -/
def fail {α : Type} (e : EngineError) : RunM α := throw (.failed e)

namespace State

/-- Writes an entry into the journal. -/
def note (e : Entry) (s : State) : State := { s with journal := s.journal ++ [e] }

/-- The events of the journal. -/
def events (s : State) : List Event :=
  s.journal.filterMap fun
    | .event e => some e
    | _ => none

/-- The requests of the journal. -/
def requests (s : State) : List ModelRequest :=
  s.journal.filterMap fun
    | .attempt _ r => some r
    | _ => none

/-- The invocations of the journal. -/
def invocations (s : State) : List Invocation :=
  s.journal.filterMap fun
    | .invocation i => some i
    | _ => none

/-- The answers to the submissions of the journal, with their tickets. -/
def acks (s : State) : List (Nat × SubmitAck) :=
  s.journal.filterMap fun
    | .submission ticket _ _ ack => some (ticket, ack)
    | _ => none

/-- The time. -/
def now (s : State) : Nat := s.world.now

/-- The state when the clock has reached a time; it is never turned back. -/
def reach (time : Nat) (s : State) : State :=
  { s with world := { s.world with now := max s.world.now time } }

/-- The state with other waits. -/
def withRendezvous (r : Rendezvous) (s : State) : State :=
  { s with world := { s.world with rendezvous := r } }

end State

end Run

end AgentRun
