import AgentRun.Duration
import AgentRun.Json.Document
import AgentRun.Text.Blank
import AgentRun.Text.Numeral
import AgentRun.Text.Quoted

/-!
# Settings of the engine

The settings that hold for all runs of an engine come from a document, each with a default, and may
be overridden one by one from the environment. Four of them must not be zero.
-/

namespace AgentRun

/-- The settings of an engine. -/
structure Config where
  /-- How many backend tools may work at once. -/
  toolWorkers : Nat
  /-- How many events of a run may wait for its consumer. -/
  eventBuffer : Nat
  /-- How long a run waits for its client, in milliseconds. -/
  frontendTimeoutMs : Nat
  /-- The most decisions of a react run whose agent sets no number. -/
  reactMaxSteps : Nat
  /-- The most model calls for one task of a plan. -/
  maxTaskRounds : Nat
  deriving DecidableEq, Repr

/-- Why settings are refused. -/
inductive ConfigError where
  /-- The file of the document cannot be read. -/
  | unreadable (path cause : String)
  /-- The document is not one of settings. -/
  | malformed
  /-- A value in the environment is no number for its setting. -/
  | invalidValue (key value : String)
  /-- A setting is zero that must not be. -/
  | zero (field : String)
  deriving DecidableEq, Repr

/-- The words for a refusal. -/
def ConfigError.message : ConfigError → String
  | .unreadable path cause => "failed to read config " ++ path ++ ": " ++ cause
  | .malformed => "invalid config"
  | .invalidValue key value => "invalid value for " ++ key ++ ": " ++ Text.quoted value
  | .zero field => field ++ " must be greater than zero"

namespace Config

/-- The default settings. -/
def default : Config := ⟨8, 256, 300000, 6, 8⟩

/-- The document of settings. -/
def toJson (c : Config) : Json :=
  .obj [("tool_workers", .nat c.toolWorkers), ("event_buffer", .nat c.eventBuffer),
    ("frontend_submit_timeout_ms", .nat c.frontendTimeoutMs),
    ("react_max_steps", .nat c.reactMaxSteps), ("max_task_rounds", .nat c.maxTaskRounds)]

/-- What is looked at of the document of settings. -/
def outline : Outline :=
  .flat ["tool_workers", "event_buffer", "frontend_submit_timeout_ms",
    "react_max_steps", "max_task_rounds"]

/-- Reads the document of settings. -/
def ofJson? (j : Json) : Option Config := do
  let r ← j.record? outline.names
  return {
    toolWorkers := ← r.orElse "tool_workers" default.toolWorkers Json.word64?
    eventBuffer := ← r.orElse "event_buffer" default.eventBuffer Json.word64?
    frontendTimeoutMs :=
      ← r.orElse "frontend_submit_timeout_ms" default.frontendTimeoutMs Json.word64?
    reactMaxSteps := ← r.orElse "react_max_steps" default.reactMaxSteps Json.word32?
    maxTaskRounds := ← r.orElse "max_task_rounds" default.maxTaskRounds Json.word32? }

instance : Documented Config := ⟨outline, ofJson?, toJson⟩

/-- Refuses settings of which one is zero that must not be; the first such is named. -/
def validate (c : Config) : Except ConfigError Config :=
  if c.toolWorkers = 0 then .error (.zero "tool_workers")
  else if c.eventBuffer = 0 then .error (.zero "event_buffer")
  else if c.reactMaxSteps = 0 then .error (.zero "react_max_steps")
  else if c.maxTaskRounds = 0 then .error (.zero "max_task_rounds")
  else .ok c

/-- The most places for workers, and for events that wait. -/
def placeLimit : Nat := 2305843009213693951

/-- With what an engine breaks down under these settings, before its first run: it cannot have more
places than there may be. -/
def breakdown? (c : Config) : Option String :=
  if placeLimit < c.toolWorkers ∨ placeLimit < c.eventBuffer then
    some ("a semaphore may not have more than MAX_PERMITS permits (" ++ toString placeLimit ++ ")")
  else none

/-- The settings of a document. -/
def ofText (s : String) : Except ConfigError Config :=
  match (Documented.ofText? s : Option Config) with
  | none => .error .malformed
  | some c => c.validate

/-- The value of a setting: that of the environment, a numeral with blanks around it, or the one
there was. -/
def override (lookup : String → Option String) (name : String) (bound old : Nat) :
    Except ConfigError Nat :=
  match lookup name with
  | none => .ok old
  | some value =>
    match Text.unsignedBelow bound (Text.trim value) with
    | some n => .ok n
    | none => .error (.invalidValue name value)

/-- The settings with the overrides of an environment. -/
def withOverrides (c : Config) (lookup : String → Option String) : Except ConfigError Config := do
  let toolWorkers ← override lookup "CONDUCTOR_TOOL_WORKERS" Text.word64 c.toolWorkers
  let eventBuffer ← override lookup "CONDUCTOR_EVENT_BUFFER" Text.word64 c.eventBuffer
  let frontendTimeoutMs ←
    override lookup "CONDUCTOR_FRONTEND_SUBMIT_TIMEOUT_MS" Text.word64 c.frontendTimeoutMs
  let reactMaxSteps ← override lookup "CONDUCTOR_REACT_MAX_STEPS" Text.word32 c.reactMaxSteps
  let maxTaskRounds ← override lookup "CONDUCTOR_MAX_TASK_ROUNDS" Text.word32 c.maxTaskRounds
  validate ⟨toolWorkers, eventBuffer, frontendTimeoutMs, reactMaxSteps, maxTaskRounds⟩

end Config

end AgentRun
