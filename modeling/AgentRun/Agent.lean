import AgentRun.Duration
import AgentRun.Identifier
import AgentRun.Json.Document
import AgentRun.Text.Blank

/-!
# Agents

The definition of an agent: its model and prompts, its tools and skills, the mode it is driven in
and the limits of its runs. All parts but the name and the model have defaults.
-/

namespace AgentRun

/-- How an agent is driven through a turn. -/
inductive AgentMode where
  /-- One decision with at most one tool call. -/
  | oneshot
  /-- Decisions with one tool call each until there is an answer. -/
  | react
  /-- A plan, then its tasks one after the other. -/
  | planExecute
  deriving DecidableEq, Repr

namespace AgentMode

/-- The name of a mode. -/
def text : AgentMode → String
  | .oneshot => "oneshot"
  | .react => "react"
  | .planExecute => "plan_execute"

/-- The modes by their names. -/
def words : List (String × AgentMode) :=
  [("oneshot", .oneshot), ("react", .react), ("plan_execute", .planExecute)]

/-- The document of a mode. -/
def toJson (m : AgentMode) : Json := .str m.text

/-- Reads the document of a mode. -/
def ofJson? : Json → Option AgentMode := Json.word? words

instance : Documented AgentMode := ⟨.whole, ofJson?, toJson⟩

end AgentMode

/-- The limits of the calls of one sort. Zero stands for no limit of calls and for no time limit. -/
structure Scope where
  /-- How many calls are admitted in a run. -/
  maxCalls : Nat
  /-- How long one attempt may take, in milliseconds. -/
  timeoutMs : Nat
  /-- How often a call that timed out is tried again. -/
  retryCount : Nat
  deriving DecidableEq, Repr

/-- The limits of a run. -/
structure Budget where
  /-- How long the run may take before it is wound up, in milliseconds; zero for no limit. -/
  runTimeoutMs : Nat
  /-- The limits of the model calls. -/
  model : Scope
  /-- The limits of the tool calls. -/
  tool : Scope
  deriving DecidableEq, Repr

/-- How the model may use the tools it is offered. -/
inductive ToolChoice where
  /-- As it likes. -/
  | auto
  /-- Not at all. -/
  | none
  /-- At least once. -/
  | required
  /-- This one. -/
  | tool (name : String)
  deriving DecidableEq, Repr

/-- How hard the model is to think. -/
inductive EffortLevel where
  /-- Little. -/
  | low
  /-- Some. -/
  | medium
  /-- Much. -/
  | high
  /-- As much as it can. -/
  | max
  deriving DecidableEq, Repr

/-- Settings for the generation that are passed on to the model. -/
structure ComputePolicy where
  /-- How hard to think. -/
  reasoningEffort : Option EffortLevel
  /-- How freely to choose the words, a finite number. -/
  temperature : Option Decimal.Binary
  /-- The most tokens of an answer. -/
  maxTokens : Option Nat
  /-- Whether several tools may be called at once. -/
  parallelToolCalls : Bool
  deriving DecidableEq, Repr

/-- What holds for every run of an agent. -/
structure RunSpec where
  /-- The limits. -/
  budget : Budget
  /-- The use of tools. -/
  toolChoice : ToolChoice
  /-- The settings for the generation. -/
  compute : ComputePolicy
  deriving DecidableEq, Repr

/-- What differs in a stage from the agent's defaults. -/
structure StagePrompt where
  systemPrompt : Option String
  tools : Option (List String)
  deriving DecidableEq, Repr

/-- The differences of the stages. -/
structure StageOverrides where
  /-- Planning. -/
  plan : StagePrompt
  /-- Working off a task. -/
  execute : StagePrompt
  /-- The final answer. -/
  summary : StagePrompt
  /-- A decision of the react mode. -/
  react : StagePrompt
  deriving DecidableEq, Repr

/-- The definition of an agent. -/
structure Agent where
  id : String
  name : String
  model : String
  /-- Who runs the model. -/
  provider : String
  systemPrompt : String
  /-- The tools it declares. -/
  tools : List String
  /-- The skills it declares. -/
  skills : List String
  mode : AgentMode
  /-- What holds for every run. -/
  runSpec : RunSpec
  /-- The differences of the stages. -/
  stages : StageOverrides
  /-- The most decisions of a run in the react mode. -/
  maxSteps : Option Nat
  deriving DecidableEq, Repr

/-! ## Defaults -/

/-- No limits. -/
def Scope.unlimited : Scope := ⟨0, 0, 0⟩

/-- No limits. -/
def Budget.unlimited : Budget := ⟨0, .unlimited, .unlimited⟩

/-- No settings. -/
def ComputePolicy.default : ComputePolicy := ⟨none, none, none, false⟩

/-- No limits, tools as the model likes, no settings. -/
def RunSpec.default : RunSpec := ⟨.unlimited, .auto, .default⟩

/-- No difference. -/
def StagePrompt.default : StagePrompt := ⟨none, none⟩

/-- No difference in any stage. -/
def StageOverrides.default : StageOverrides := ⟨.default, .default, .default, .default⟩

/-- The agent with an id, a name and a model and the defaults for all else. -/
def Agent.ofName (id name model : String) : Agent where
  id := id
  name := name
  model := model
  provider := ""
  systemPrompt := ""
  tools := []
  skills := []
  mode := .oneshot
  runSpec := .default
  stages := .default
  maxSteps := none

/-! ## Questions -/

/-- The time limit of an attempt, if there is one. -/
def Scope.timeout? (s : Scope) : Option Nat := if s.timeoutMs = 0 then none else some s.timeoutMs

/-- The attempts that a call has: one without a time limit, and with one also the retries. -/
def Scope.attempts (s : Scope) : Nat := if s.timeoutMs = 0 then 1 else s.retryCount + 1

/-- The time limit of a run, if there is one. -/
def Budget.runTimeout? (b : Budget) : Option Nat :=
  if b.runTimeoutMs = 0 then none else some b.runTimeoutMs

/-- The system prompt of a stage: its own unless that is blank, else the agent's. -/
def Agent.stagePrompt (a : Agent) (stage : StagePrompt) : String :=
  (stage.systemPrompt.filter fun p => !Text.isBlankText p).getD a.systemPrompt

/-- The tools of a stage: its own, else the agent's. -/
def Agent.stageTools (a : Agent) (stage : StagePrompt) : List String :=
  stage.tools.getD a.tools

/-! ## Documents -/

namespace Scope

/-- The document of the limits of calls. -/
def toJson (s : Scope) : Json :=
  .obj [("max_calls", .nat s.maxCalls), ("timeout_ms", .nat s.timeoutMs),
    ("retry_count", .nat s.retryCount)]

/-- What is looked at of the document of the limits of calls. -/
def outline : Outline :=
  .flat ["max_calls", "timeout_ms", "retry_count"]

/-- Reads the document of the limits of calls. -/
def ofJson? (j : Json) : Option Scope := do
  let r ← j.record? outline.names
  return {
    maxCalls := ← r.orElse "max_calls" 0 Json.word32?
    timeoutMs := ← r.orElse "timeout_ms" 0 Json.word64?
    retryCount := ← r.orElse "retry_count" 0 Json.word32? }

instance : Documented Scope := ⟨outline, ofJson?, toJson⟩

end Scope

namespace Budget

/-- The document of the limits of a run. -/
def toJson (b : Budget) : Json :=
  .obj [("run_timeout_ms", .nat b.runTimeoutMs), ("model", b.model.toJson),
    ("tool", b.tool.toJson)]

/-- What is looked at of the document of the limits of a run. -/
def outline : Outline :=
  .record [("run_timeout_ms", .whole), ("model", Scope.outline), ("tool", Scope.outline)]

/-- Reads the document of the limits of a run. -/
def ofJson? (j : Json) : Option Budget := do
  let r ← j.record? outline.names
  return {
    runTimeoutMs := ← r.orElse "run_timeout_ms" 0 Json.word64?
    model := ← r.orElse "model" .unlimited Scope.ofJson?
    tool := ← r.orElse "tool" .unlimited Scope.ofJson? }

instance : Documented Budget := ⟨outline, ofJson?, toJson⟩

end Budget

namespace ToolChoice

/-- The choices that are single words. -/
def words : List (String × ToolChoice) :=
  [("auto", .auto), ("none", .none), ("required", .required)]

/-- The document of a choice. -/
def toJson : ToolChoice → Json
  | .auto => .str "auto"
  | .none => .str "none"
  | .required => .str "required"
  | .tool name => .obj [("tool", .str name)]

/-- Reads the document of a choice. -/
def ofJson? : Json → Option ToolChoice
  | .obj [("tool", .str name)] => some (.tool name)
  | j => j.word? words

instance : Documented ToolChoice := ⟨.whole, ofJson?, toJson⟩

end ToolChoice

namespace EffortLevel

/-- The name of a level. -/
def text : EffortLevel → String
  | .low => "low"
  | .medium => "medium"
  | .high => "high"
  | .max => "max"

/-- The levels by their names. -/
def words : List (String × EffortLevel) :=
  [("low", .low), ("medium", .medium), ("high", .high), ("max", .max)]

/-- The document of a level. -/
def toJson (l : EffortLevel) : Json := .str l.text

/-- Reads the document of a level. -/
def ofJson? : Json → Option EffortLevel := Json.word? words

instance : Documented EffortLevel := ⟨.whole, ofJson?, toJson⟩

end EffortLevel

namespace ComputePolicy

/-- The document of the settings for the generation. -/
def toJson (c : ComputePolicy) : Json :=
  .obj (Record.maybe "reasoning_effort" EffortLevel.toJson c.reasoningEffort ++
    Record.maybe "temperature" (fun t => .num (.float t)) c.temperature ++
    Record.maybe "max_tokens" .nat c.maxTokens ++
    [("parallel_tool_calls", .bool c.parallelToolCalls)])

/-- What is looked at of the document of the settings for the generation. -/
def outline : Outline :=
  .flat ["reasoning_effort", "temperature", "max_tokens", "parallel_tool_calls"]

/-- Reads the document of the settings for the generation. -/
def ofJson? (j : Json) : Option ComputePolicy := do
  let r ← j.record? outline.names
  return {
    reasoningEffort := ← r.optional "reasoning_effort" EffortLevel.ofJson?
    temperature := ← r.optional "temperature" Json.float?
    maxTokens := ← r.optional "max_tokens" Json.word32?
    parallelToolCalls := ← r.orElse "parallel_tool_calls" false Json.bool? }

instance : Documented ComputePolicy := ⟨outline, ofJson?, toJson⟩

end ComputePolicy

namespace RunSpec

/-- The document of what holds for every run. -/
def toJson (s : RunSpec) : Json :=
  .obj [("budget", s.budget.toJson), ("tool_choice", s.toolChoice.toJson),
    ("compute", s.compute.toJson)]

/-- What is looked at of the document of what holds for every run. -/
def outline : Outline :=
  .record [("budget", Budget.outline), ("tool_choice", .whole), ("compute", ComputePolicy.outline)]

/-- Reads the document of what holds for every run. -/
def ofJson? (j : Json) : Option RunSpec := do
  let r ← j.record? outline.names
  return {
    budget := ← r.orElse "budget" .unlimited Budget.ofJson?
    toolChoice := ← r.orElse "tool_choice" .auto ToolChoice.ofJson?
    compute := ← r.orElse "compute" .default ComputePolicy.ofJson? }

instance : Documented RunSpec := ⟨outline, ofJson?, toJson⟩

end RunSpec

namespace StagePrompt

/-- The document of the differences of a stage. -/
def toJson (s : StagePrompt) : Json :=
  .obj (Record.maybe "system_prompt" .str s.systemPrompt ++
    Record.maybe "tools" (Json.list .str) s.tools)

/-- What is looked at of the document of the differences of a stage. -/
def outline : Outline :=
  .flat ["system_prompt", "tools"]

/-- Reads the document of the differences of a stage. -/
def ofJson? (j : Json) : Option StagePrompt := do
  let r ← j.record? outline.names
  return {
    systemPrompt := ← r.optional "system_prompt" Json.str?
    tools := ← r.optional "tools" (Json.list? Json.str?) }

instance : Documented StagePrompt := ⟨outline, ofJson?, toJson⟩

end StagePrompt

namespace StageOverrides

/-- The document of the differences of the stages. -/
def toJson (s : StageOverrides) : Json :=
  .obj [("plan", s.plan.toJson), ("execute", s.execute.toJson), ("summary", s.summary.toJson),
    ("react", s.react.toJson)]

/-- What is looked at of the document of the differences of the stages. -/
def outline : Outline :=
  .record [("plan", StagePrompt.outline), ("execute", StagePrompt.outline),
    ("summary", StagePrompt.outline), ("react", StagePrompt.outline)]

/-- Reads the document of the differences of the stages. -/
def ofJson? (j : Json) : Option StageOverrides := do
  let r ← j.record? outline.names
  return {
    plan := ← r.orElse "plan" .default StagePrompt.ofJson?
    execute := ← r.orElse "execute" .default StagePrompt.ofJson?
    summary := ← r.orElse "summary" .default StagePrompt.ofJson?
    react := ← r.orElse "react" .default StagePrompt.ofJson? }

instance : Documented StageOverrides := ⟨outline, ofJson?, toJson⟩

end StageOverrides

namespace Agent

/-- The document of a definition. -/
def toJson (a : Agent) : Json :=
  .obj ([("id", .str a.id), ("name", .str a.name), ("model", .str a.model),
    ("provider", .str a.provider), ("system_prompt", .str a.systemPrompt),
    ("tools", Json.list .str a.tools), ("skills", Json.list .str a.skills),
    ("mode", a.mode.toJson), ("run_spec", a.runSpec.toJson), ("stages", a.stages.toJson)] ++
    Record.maybe "max_steps" .nat a.maxSteps)

/-- What is looked at of the document of a definition. -/
def outline : Outline :=
  .record [("id", .whole), ("name", .whole), ("model", .whole), ("provider", .whole),
    ("system_prompt", .whole), ("tools", .whole), ("skills", .whole), ("mode", .whole),
    ("run_spec", RunSpec.outline), ("stages", StageOverrides.outline), ("max_steps", .whole)]

/-- Reads the document of a definition, which has the id `fresh` if it gives none. -/
def ofJson? (fresh : String) (j : Json) : Option Agent := do
  let r ← j.record? outline.names
  return {
    id := ← r.orElse "id" fresh Json.str?
    name := ← r.required "name" Json.str?
    model := ← r.required "model" Json.str?
    provider := ← r.orElse "provider" "" Json.str?
    systemPrompt := ← r.orElse "system_prompt" "" Json.str?
    tools := ← r.orElse "tools" [] (Json.list? Json.str?)
    skills := ← r.orElse "skills" [] (Json.list? Json.str?)
    mode := ← r.orElse "mode" .oneshot AgentMode.ofJson?
    runSpec := ← r.orElse "run_spec" .default RunSpec.ofJson?
    stages := ← r.orElse "stages" .default StageOverrides.ofJson?
    maxSteps := ← r.optional "max_steps" Json.word32? }

/-- Definitions as documents, where one without an id is given the id `fresh`. -/
abbrev documented (fresh : String) : Documented Agent := ⟨outline, ofJson? fresh, toJson⟩

end Agent

end AgentRun
