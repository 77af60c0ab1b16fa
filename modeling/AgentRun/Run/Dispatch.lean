import AgentRun.Json.Printer
import AgentRun.Plan.Tools
import AgentRun.Retry
import AgentRun.Run.Delivery

/-!
# Dispatching tool calls

A call is answered with exactly one result, whatever becomes of it: its templates are resolved, a
plan tool changes the plan, and every other call takes a place in the budget and is then worked on
where its tool is at home. Only a client that does not answer in time or is gone ends the run here.
-/

namespace AgentRun.Run

/-- The answer to a call. -/
structure Answer where
  result : Json
  /-- What the call changed in the plan. -/
  change : Option PlanChange
  deriving DecidableEq, Repr

/-- Writes a call with its result down, in the records and the conversation, and shows the result
and, if the plan changed, the plan. -/
def complete (env : Env) (call : Call) (args result : Json) (change : Option PlanChange) :
    RunM Answer := do
  modify fun s => { s with
    records := s.records ++ [⟨call.id, call.name, args, result⟩]
    history := s.history ++ [.tool ⟨call.id, call.name, result⟩] }
  emit env (.toolResult call.id result)
  if change.isSome then showPlan env
  return ⟨result, change⟩

/-- A call as it goes to the client. -/
def echo (call : Call) (args : Json) (kind : ToolKind) : Event :=
  .toolCall ⟨call.id, some call.name, some kind.text, args.text, call.index⟩

/-- Applies a plan tool to the plan. -/
def changePlan (env : Env) (tool : PlanTool) (args : Json) : RunM (Json × Option PlanChange) := do
  let s ← get
  let fresh := fun i => IdKind.task.mint env.supply (s.assembly.minted + i)
  match tool.apply args fresh s.plan with
  | .ok (change, plan) =>
    set { s with
      plan := plan
      assembly := { s.assembly with minted := s.assembly.minted + change.minted } }
    return (change.result, some change)
  | .error e => return (failureResult e.message, none)

/-- Counts a tool call, unless its sort is used up. -/
def admitTool : RunM (Option BudgetExceeded) := do
  let s ← get
  match s.spending.admitTool with
  | .ok spending =>
    set { s with spending := spending }
    return none
  | .error e => return some e

/-- Sends a call to the client and waits for its result. The wait is registered before the call
goes out, so that a client that answers at once finds it. -/
def awaitClient (env : Env) (call : Call) (args : Json) : RunM Json := do
  let key : WaitKey := ⟨env.runId, call.id⟩
  let s ← get
  match s.world.rendezvous.register key with
  | (.error e, r) =>
    set (s.withRendezvous r)
    fail (.rendezvous e)
  | (.ok handle, r) =>
    set ((s.withRendezvous r).note (.waitBegan key))
    let release : State → State := fun s =>
      (s.withRendezvous (s.world.rendezvous.release handle)).note (.waitEnded key)
    try emit env (echo call args .frontend)
    catch halt =>
      modify release
      throw halt
    let s ← get
    let (result, s) := awaitSubmission env handle (s.now + env.frontendTimeoutMs) s
    set (release s)
    match result with
    | .payload value => return value
    | .timeout => fail (.frontendTimeout call.name env.frontendTimeoutMs)
    | .gone => fail (if s.channel.connected then .rendezvous .abandoned else .consumerGone)

/-- Invokes a backend tool on a worker that is free at a time. -/
def invoke (env : Env) (i : Invocation) (deadline : Option Nat) : RunM (Option Json) := do
  let s ← get
  let reply := env.bodies.invoke s.world.invocations i
  let s := s.note (.invocation i)
  set { s with world := { s.world with
    invocations := s.world.invocations ++ [i]
    workers := s.world.workers.assign s.now (reply.takes.map (s.now + ·)) } }
  modify fun s => takeStep env (passTime env s.now s)
  if ← waitFor env reply.takes deadline then return some reply.outcome.result else return none

/-- One attempt of a backend tool: it waits for a worker and then for the body of the tool. -/
def attemptTool (env : Env) (i : Invocation) (limit : Option Nat) : RunM (Option Json) := do
  let s ← get
  let deadline := limit.map (s.now + ·)
  modify (takeStep env)
  if s.world.workers.closed then return some (failureResult "tool worker pool closed")
  let free := (s.world.workers.freeFrom s.now).map fun t => t - s.now
  if ← waitFor env free deadline then invoke env i deadline else return none

/-- The result of a backend tool, with the attempts that its budget allows. -/
def runTool (env : Env) (tool : Tool) (call : Call) (args : Json) : RunM Json := do
  let scope := (← get).spending.budget.tool
  let i : Invocation := ⟨tool.definition.name, args, ⟨env.runId, env.agent.id, call.id⟩⟩
  match ← retrying (fun _ => attemptTool env i scope.timeout?) scope.attempts 0 with
  | some result => return result
  | none => return failureResult ("tool " ++ scope.timeoutError.message)

/-- The result of a call of a registered tool, by its kind. -/
def workOff (env : Env) (tool : Tool) (call : Call) (args : Json) : RunM Json :=
  match tool.kind with
  | .frontend => awaitClient env call args
  | .action => do
    emit env (echo call args .action)
    return .obj [("dispatched", .bool true), ("ok", .bool true)]
  | .backend => runTool env tool call args

/-- Answers a call. -/
def dispatch (env : Env) (call : Call) : RunM Answer := do
  modify (·.note (.dispatch call))
  match call.arguments with
  | .error e =>
    complete env call (.str call.rawArguments)
      (failureResult ("invalid JSON arguments: " ++ e.message)) none
  | .ok raw =>
    let args := resolve (← get).records raw
    match PlanTool.ofName? call.name with
    | some tool =>
      let (result, change) ← changePlan env tool args
      complete env call args result change
    | none =>
      match ← admitTool with
      | some denied => complete env call args (failureResult denied.message) none
      | none =>
        match env.tools.get? call.name with
        | none => complete env call args (failureResult ("unknown tool: " ++ call.name)) none
        | some tool =>
          let result ← workOff env tool call args
          complete env call args result none

/-- Answers calls in order. -/
def dispatchAll (env : Env) : List Call → RunM Unit
  | [] => return ()
  | call :: rest => do
    let _ ← dispatch env call
    dispatchAll env rest

end AgentRun.Run
