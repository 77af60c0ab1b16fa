import AgentRun.Plan.Tools
import AgentRun.Retry
import AgentRun.Run.Delivery
import AgentRun.Skill

/-!
# Model calls

A model call that is admitted goes to the model as a request, whose answer is put together chunk by
chunk while its events go out. Under a time limit, an attempt that gave nothing in time is repeated;
once a part of an answer is out it cannot be taken back, and running out of time then ends the run.
-/

namespace AgentRun.Run

/-- What a stage asks the model for. -/
structure Ask where
  /-- The system prompt, without the catalog. -/
  systemPrompt : String
  /-- The tools that are offered. -/
  tools : List ToolDefinition
  /-- How they may be used, if there are any. -/
  toolChoice : ToolChoice
  /-- What is asked on top of the conversation. -/
  directive : Option String
  deriving DecidableEq, Repr

/-- The definitions of the tools that an agent has in a stage: the registered ones in order, then
the plan tools that are named among them. -/
def toolsFor (env : Env) (stage : StagePrompt) : List ToolDefinition :=
  let names := env.agent.stageTools stage
  env.tools.definitions (names.filter fun n => !PlanTool.isName n) ++
    (names.filterMap PlanTool.ofName?).map PlanTool.definition

/-- The request for an answer. Without tools none may be used. -/
def requestFor (env : Env) (history : List Message) (ask : Ask) : ModelRequest where
  model := env.agent.model
  systemPrompt := withCatalog ask.systemPrompt env.catalog
  history := history
  directive := ask.directive
  tools := ask.tools
  toolChoice := if ask.tools.isEmpty then .none else ask.toolChoice
  compute := env.agent.runSpec.compute

/-- How an attempt at an answer ends. -/
inductive AttemptEnd where
  /-- The answer is complete. -/
  | complete
  /-- The time was up, after some output or before any. -/
  | timedOut (emitted : Bool)
  deriving DecidableEq, Repr

/-- Takes a chunk into the answer and sends its events out. It answers whether there were any. -/
def takeChunk (env : Env) (c : Chunk) : RunM Bool := do
  let s ← get
  let (events, assembly) := s.assembly.push env.supply c
  set { s with assembly := assembly }
  emitAll env events
  return !events.isEmpty

/-- Takes the rest of a stream, until its end or until the deadline. -/
def readStream (env : Env) (deadline : Option Nat) (endsAfter : Nat) (ending : StreamEnd)
    (emitted : Bool) : List (Nat × Chunk) → RunM AttemptEnd
  | [] => do
    if !(← waitFor env (some endsAfter) deadline) then return .timedOut emitted
    match ending with
    | .done => return .complete
    | .failed e => fail (.gateway e)
    | .panicked m => throw (.panicked m)
    | .silent =>
      let _ ← waitFor env none deadline
      return .timedOut emitted
  | (after, c) :: rest => do
    if !(← waitFor env (some after) deadline) then return .timedOut emitted
    let more ← takeChunk env c
    readStream env deadline endsAfter ending (emitted || more) rest

/-- One attempt at an answer. Its deadline counts from its start, over the opening and all chunks. -/
def attemptAnswer (env : Env) (request : ModelRequest) (limit : Option Nat) :
    RunM AttemptEnd := do
  let s ← get
  let deadline := limit.map (s.now + ·)
  let reply := env.model.reply s.world.requests request
  let s := s.note (.attempt s.now request)
  set { s with world := { s.world with requests := s.world.requests ++ [request] } }
  if !(← waitFor env reply.after deadline) then return .timedOut false
  match reply.opening with
  | .refused e => fail (.gateway e)
  | .panicked m => throw (.panicked m)
  | .stream stream => readStream env deadline stream.endsAfter stream.ending false stream.chunks

/-- The answer as it is put together, after which the next one can begin. -/
def takeTurn : RunM Turn := do
  let s ← get
  set { s with assembly := s.assembly.next }
  return s.assembly.turn

/-- The attempt of a number at an answer, as the rule of repetition sees it: an answer, or nothing
in time while there are attempts left. -/
def answerInTime (env : Env) (request : ModelRequest) (scope : Scope) (n : Nat) :
    RunM (Option Turn) := do
  match ← attemptAnswer env request scope.timeout? with
  | .complete =>
    let turn ← takeTurn
    modify (·.note (.answer request turn))
    return some turn
  | .timedOut true => fail (.modelStalled scope.timeoutMs)
  | .timedOut false =>
    if n + 1 < scope.attempts then
      let _ ← takeTurn
      return none
    else fail (.modelTimeout scope.timeoutError)

/-- Asks the model. It answers `none` when the budget denies the call. -/
def callModel (env : Env) (ask : Ask) : RunM (Option Turn) := do
  let s ← get
  match s.spending.admitModel with
  | .error _ => return none
  | .ok spending =>
    let request := requestFor env s.history ask
    let scope := spending.budget.model
    set ({ s with spending := spending }.note (.modelCall s.now request))
    match ← retrying (answerInTime env request scope) scope.attempts 0 with
    | some turn => return some turn
    | none => fail (.internal "model call loop exited without a result")

/-- Puts a turn into the conversation, unless it says nothing. -/
def commit (turn : Turn) : RunM Unit :=
  if turn.isSilent then return () else addMessage (.assistant turn.message)

end AgentRun.Run
