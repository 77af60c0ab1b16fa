import AgentRun.Run.Dispatch
import AgentRun.Run.ModelCall

/-!
# The stages of a run

How the modes drive a run. A oneshot run decides once and calls at most one tool; a react run
decides again and again, with one tool call each time, until there is an answer; a plan_execute run
makes a plan, works off its tasks in order and then writes a summary.
-/

namespace AgentRun.Run

/-- What the engine says when the model calls are used up before the final answer. -/
def budgetExhaustedMessage : String :=
  "I ran out of model calls for this request before I could put together a final answer."

/-- What the model is asked for in the final stage. -/
def summaryDirective : String :=
  "Write the final answer for the user based on everything gathered so far. Do not call tools."

/-- Whether the run has used up its time. -/
def isTimedOut : RunM Bool := do
  let s ← get
  return s.spending.isTimedOut s.now

/-- The request for the final answer, without tools. -/
def summaryAsk (agent : Agent) : Ask :=
  ⟨agent.stagePrompt agent.stages.summary, [], .none, some summaryDirective⟩

/-- The final answer. If the model calls are used up, the engine says so instead. -/
def summarize (env : Env) : RunM Unit := do
  if (← get).spending.modelIsSpent then say env budgetExhaustedMessage
  else
    match ← callModel env (summaryAsk env.agent) with
    | some turn => commit (turn.keep 0)
    | none => say env budgetExhaustedMessage

/-! ## One decision -/

/-- The request for the decision of a oneshot run. -/
def oneshotAsk (env : Env) : Ask :=
  ⟨env.agent.systemPrompt, toolsFor env .default, env.agent.runSpec.toolChoice, none⟩

/-- A oneshot run. -/
def oneshot (env : Env) : RunM Unit := do
  match ← callModel env (oneshotAsk env) with
  | none => summarize env
  | some turn =>
    commit (turn.keep 1)
    if (turn.keep 1).hasCalls then
      dispatchAll env (turn.keep 1).calls
      summarize env

/-! ## Decisions until there is an answer -/

/-- The request for a decision of a react run. -/
def reactAsk (env : Env) : Ask :=
  ⟨env.agent.stagePrompt env.agent.stages.react, toolsFor env env.agent.stages.react,
    env.agent.runSpec.toolChoice, none⟩

/-- A react run with a number of decisions left. -/
def react (env : Env) : Nat → RunM Unit
  | 0 => summarize env
  | left + 1 => do
    if ← isTimedOut then summarize env
    else
      match ← callModel env (reactAsk env) with
      | none => summarize env
      | some turn =>
        commit (turn.keep 1)
        if (turn.keep 1).hasCalls then
          dispatchAll env (turn.keep 1).calls
          react env left

/-! ## Plan and execute -/

/-- What the model is asked for when it plans, with the tools that it will have. -/
def planDirective (available : List String) : String :=
  "Break the request into ordered tasks and record them with " ++ PlanTool.addTasks.name ++ "." ++
    if available.isEmpty then ""
    else " Tools available when executing: " ++ ", ".intercalate available ++ "."

/-- The request for a plan. -/
def planAsk (env : Env) : Ask where
  systemPrompt := env.agent.stagePrompt env.agent.stages.plan
  tools := [PlanTool.addTasks.definition]
  toolChoice := .tool PlanTool.addTasks.name
  directive := some (planDirective
    ((toolsFor env env.agent.stages.execute).map ToolDefinition.name))

/-- Has the model plan. -/
def makePlan (env : Env) : RunM Unit := do
  match ← callModel env (planAsk env) with
  | none => return ()
  | some turn =>
    commit turn
    dispatchAll env turn.calls

/-- What the model is asked for when it works on a task. -/
def taskDirective (task : PlanTask) : String :=
  "Current task " ++ task.taskId ++ ": " ++ task.description ++
    "\nWhen it is done, or cannot be done, call " ++ PlanTool.updateTask.name ++
    " with this task_id and the outcome."

/-- The tools for working on a task; the one that records its outcome is always among them. -/
def taskTools (env : Env) : List ToolDefinition :=
  let tools := toolsFor env env.agent.stages.execute
  if tools.any fun d => d.name == PlanTool.updateTask.name then tools
  else tools ++ [PlanTool.updateTask.definition]

/-- The request for a round of work on a task. -/
def taskAsk (env : Env) (task : PlanTask) : Ask :=
  ⟨env.agent.stagePrompt env.agent.stages.execute, taskTools env, env.agent.runSpec.toolChoice,
    some (taskDirective task)⟩

/-- Whether a task is no longer open. -/
def isSettled (plan : Plan) (task : PlanTask) : Bool :=
  ((plan.task? task.taskId).map fun t => t.status.isTerminal).getD true

/-- Gives a task up. -/
def giveUp (env : Env) (task : PlanTask) : RunM Unit := do
  let s ← get
  match s.plan.setStatus? task.taskId .failed with
  | .ok plan =>
    set { s with plan := plan }
    showPlan env
  | .error e => fail (.plan e)

/-- Works on a task, with a number of rounds left, until it is settled, its rounds are used up or
the time of the run is. It answers `false` when the model calls are used up. -/
def workOn (env : Env) (task : PlanTask) : Nat → RunM Bool
  | 0 => do
    if isSettled (← get).plan task then return true
    giveUp env task
    return true
  | left + 1 => do
    if isSettled (← get).plan task then return true
    if ← isTimedOut then return true
    match ← callModel env (taskAsk env task) with
    | none => return false
    | some turn =>
      commit turn
      dispatchAll env turn.calls
      workOn env task left

/-- Drops the tasks that are still open. -/
def cancelOpen (env : Env) : RunM Unit := do
  let s ← get
  if s.plan.hasOpen then
    set { s with plan := s.plan.cancelOpen }
    showPlan env

/-- Works off the open tasks in order, up to `fuel` of them. The model may add tasks without end, so
no number is enough for every model. -/
def execute (env : Env) (rounds : Nat) : Nat → RunM Unit
  | 0 => throw .cut
  | fuel + 1 => do
    match (← get).plan.nextOpen? with
    | none => return ()
    | some task =>
      if ← isTimedOut then cancelOpen env
      else if ← workOn env task rounds then execute env rounds fuel
      else cancelOpen env

/-- A plan_execute run with a number of rounds for each task. A plan that has open tasks already is
taken as it is. -/
def planExecute (env : Env) (rounds fuel : Nat) : RunM Unit := do
  stageMarker env "plan"
  if !(← get).plan.hasOpen then
    if !(← isTimedOut) then makePlan env
  stageMarker env "execute"
  execute env rounds fuel
  stageMarker env "summary"
  summarize env

/-! ## The modes -/

/-- How a run is driven, with its bounds. -/
inductive Runner where
  /-- One decision. -/
  | oneshot
  /-- Up to a number of decisions. -/
  | react (maxSteps : Nat)
  /-- A plan with a number of rounds for each task. -/
  | planExecute (maxTaskRounds : Nat)
  deriving DecidableEq, Repr

/-- How the runs of an agent are driven. -/
def Runner.ofAgent (agent : Agent) (config : Config) : Runner :=
  match agent.mode with
  | .oneshot => .oneshot
  | .react => .react ((agent.maxSteps.filter fun n => n != 0).getD config.reactMaxSteps)
  | .planExecute => .planExecute config.maxTaskRounds

/-- The mode of a way to drive runs. -/
def Runner.mode : Runner → AgentMode
  | .oneshot => .oneshot
  | .react _ => .react
  | .planExecute _ => .planExecute

/-- The stages of a run. -/
def Runner.stages (env : Env) (fuel : Nat) : Runner → RunM Unit
  | .oneshot => Run.oneshot env
  | .react maxSteps => Run.react env maxSteps
  | .planExecute rounds => Run.planExecute env rounds fuel

end AgentRun.Run
