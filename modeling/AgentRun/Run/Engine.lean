import AgentRun.Run.Stages

/-!
# The engine

An engine holds what is shared by its runs. A run starts from the conversation and the plan before
it and a message of the user (`Engine.start`), and is then driven to its end (`drive`): the events
of its stages are followed by exactly one `finish`, with an apology in front of it if the stages
ended badly. Runs come one after another (`Engine.run`), each in the world that the one before left.
-/

namespace AgentRun

/-- What the runs of an engine share. -/
structure Engine where
  /-- The supply of UUIDs. -/
  supply : Supply
  model : Model
  /-- The registered tools. -/
  tools : ToolRegistry
  /-- The bodies of the backend tools. -/
  bodies : ToolBodies
  skills : SkillRegistry
  /-- The settings. -/
  config : Config

/-- What a run starts from. -/
structure UserTurn where
  agent : Agent
  /-- The conversation before it. -/
  history : List Message
  /-- The plan before it. -/
  plan : Option Plan
  /-- What the user says. -/
  message : String
  /-- The client that takes the events. -/
  client : Client

namespace Run

/-- What the user is told when something went wrong. -/
def genericFailureMessage : String :=
  "Something went wrong while working on this request. Please try again."

/-- What the user is told when the client did not answer in time. -/
def frontendTimeoutMessage : String :=
  "Timed out waiting for the requested input, so this request was stopped."

/-- A world at its beginning. -/
def World.new (workers : Nat) : World := ⟨0, .empty, .new workers, [], [], 0⟩

/-- Ends the events of a run with an apology. -/
def apologise (env : Env) (message : String) (reason : FinishReason) : RunM Unit := do
  say env message
  finish env reason

/-- The end of the events after the stages came out as they did. A run without a consumer just
stops, and so does one that is stuck. -/
def closing (env : Env) : Except Halt Unit → RunM Unit
  | .ok () => finish env .stop
  | .error (.failed .consumerGone) => return ()
  | .error (.failed (.frontendTimeout _ _)) => apologise env frontendTimeoutMessage .timeout
  | .error (.failed _) => apologise env genericFailureMessage .stop
  | .error (.panicked _) => apologise env genericFailureMessage .stop
  | .error .stuck => throw .stuck
  | .error .cut => throw .cut

/-- How a run came out. -/
structure Outcome where
  /-- How its stages came out. -/
  stages : Except Halt Unit
  /-- Whether the run came to an end at all. -/
  ended : Bool
  /-- The state at its end. -/
  final : State

/-- Drives a run to its end. The consumer takes what is there at last. -/
def drive (env : Env) (runner : Runner) (fuel : Nat) (s : State) : Outcome :=
  let (stages, s) := (runner.stages env fuel).run s
  let (closed, s) := (closing env stages).run s
  let ended := match closed with
    | .error .stuck => false
    | .error .cut => false
    | _ => true
  ⟨stages, ended, clientTurn env s⟩

/-- The surroundings of a run with an id. -/
def envOf (engine : Engine) (turn : UserTurn) (runId : String) : Env where
  supply := engine.supply
  model := engine.model
  tools := engine.tools
  bodies := engine.bodies
  client := turn.client
  frontendTimeoutMs := engine.config.frontendTimeoutMs
  runId := runId
  agent := turn.agent
  catalog := engine.skills.catalog? turn.agent.skills

/-- The state of a run at its start. A run without a plan before it gets an empty one. -/
def startState (engine : Engine) (turn : UserTurn) (world : World) (minted : Nat) : State where
  world := world
  channel := .new (max 1 engine.config.eventBuffer)
  agenda := []
  lastTaken := world.now
  gaveUp := false
  stretch := 0
  history := turn.history ++ [.user turn.message]
  records := []
  plan := turn.plan.getD ⟨IdKind.plan.mint engine.supply minted, []⟩
  spending := .start turn.agent.runSpec.budget world.now
  assembly := .start (minted + 1)
  journal := []

end Run

namespace Engine

/-- The surroundings and the state of a new run. -/
def start (engine : Engine) (turn : UserTurn) (world : Run.World) : Run.Env × Run.State :=
  let env := Run.envOf engine turn (IdKind.run.mint engine.supply world.minted)
  let s := Run.startState engine turn world (world.minted + 1)
  (env, Run.undertakeAll (turn.client.react env.runId []) s)

/-- A whole run. -/
def run (engine : Engine) (turn : UserTurn) (world : Run.World) (fuel : Nat) : Run.Outcome :=
  let (env, s) := engine.start turn world
  Run.drive env (Run.Runner.ofAgent turn.agent engine.config) fuel s

end Engine

namespace Run

/-- The world that a run leaves, when the client has done all it had in mind. -/
def Outcome.worldAfter (o : Outcome) (env : Env) : World :=
  let s := passAgenda env o.final
  { s.world with minted := s.assembly.minted }

end Run

end AgentRun
