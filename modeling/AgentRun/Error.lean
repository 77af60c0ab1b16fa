import AgentRun.Duration
import AgentRun.Plan.Basic

/-!
# Errors

What can go wrong on the way to an answer: with the model, with a wait for the client, with a limit
or with the consumer of the events. Each error is its cause, and `message` gives its words.
-/

namespace AgentRun

/-- A failure of the model, on opening an answer or in its course. -/
inductive GatewayError where
  /-- The request was refused, with a status if there was one. -/
  | rejected (status : Option Nat) (message : String)
  /-- Too many requests; to be tried again after some milliseconds, if it is known. -/
  | rateLimited (retryAfterMs : Option Nat)
  /-- The provider cannot be reached. -/
  | unavailable (message : String)
  /-- The answer broke off. -/
  | streamInterrupted (message : String)
  /-- A chunk could not be understood. -/
  | malformedChunk (message : String)
  /-- The provider took longer than it may, in milliseconds. -/
  | timeout (ms : Nat)
  deriving DecidableEq, Repr

namespace GatewayError

/-- The words for a failure of the model. -/
def message : GatewayError → String
  | .rejected status m =>
    "request rejected" ++ (status.map fun s => " (" ++ toString s ++ ")").getD "" ++ ": " ++ m
  | .rateLimited _ => "rate limited"
  | .unavailable m => "provider unavailable: " ++ m
  | .streamInterrupted m => "stream interrupted: " ++ m
  | .malformedChunk m => "malformed chunk: " ++ m
  | .timeout ms => "timeout after " ++ durationText ms

/-- The sort of a failure. -/
def kind : GatewayError → String
  | .rejected _ _ => "rejected"
  | .rateLimited _ => "rate_limited"
  | .unavailable _ => "unavailable"
  | .streamInterrupted _ => "stream_interrupted"
  | .malformedChunk _ => "malformed_chunk"
  | .timeout _ => "timeout"

/-- Whether the same request could succeed later. -/
def isTransient : GatewayError → Bool
  | .rejected _ _ => false
  | .malformedChunk _ => false
  | _ => true

end GatewayError

/-- Why a wait for the client gives nothing. -/
inductive RendezvousError where
  /-- A wait for the same call is pending. -/
  | alreadyPending (runId callId : String)
  /-- Nothing was submitted in time. -/
  | timeout (ms : Nat)
  /-- The wait lost its other end. -/
  | abandoned
  deriving DecidableEq, Repr

/-- The words for a wait that gave nothing. -/
def RendezvousError.message : RendezvousError → String
  | .alreadyPending runId callId =>
    "a submission is already pending for " ++ runId ++ "/" ++ callId
  | .timeout ms => "no submission within " ++ durationText ms
  | .abandoned => "pending submission abandoned"

/-- The two sorts of calls that are counted. -/
inductive ScopeKind where
  /-- Model calls. -/
  | model
  /-- Tool calls. -/
  | tool
  deriving DecidableEq, Repr

/-- The name of a sort of calls. -/
def ScopeKind.text : ScopeKind → String
  | .model => "model"
  | .tool => "tool"

/-- All calls of a sort are used up. -/
structure BudgetExceeded where
  /-- The sort. -/
  scope : ScopeKind
  /-- The calls that there were. -/
  maxCalls : Nat
  deriving DecidableEq, Repr

/-- The words for a used-up sort of calls. -/
def BudgetExceeded.message (e : BudgetExceeded) : String :=
  e.scope.text ++ " budget exhausted (" ++ toString e.maxCalls ++ " calls)"

/-- Every attempt of a call took too long. -/
structure CallTimeout where
  attempts : Nat
  /-- The time limit of each, in milliseconds. -/
  timeoutMs : Nat
  deriving DecidableEq, Repr

/-- The words for a call that timed out. -/
def CallTimeout.message (e : CallTimeout) : String :=
  "timed out after " ++ toString e.attempts ++ " attempt(s) of " ++ durationText e.timeoutMs

/-- What ends a run before its stages do. -/
inductive EngineError where
  /-- The model failed. -/
  | gateway (error : GatewayError)
  /-- No attempt of a model call gave anything in time. -/
  | modelTimeout (error : CallTimeout)
  /-- A model call ran out of time with a part of its answer already delivered. -/
  | modelStalled (timeoutMs : Nat)
  /-- The client did not answer a frontend call in time. -/
  | frontendTimeout (tool : String) (timeoutMs : Nat)
  /-- A wait for the client could not be kept. -/
  | rendezvous (error : RendezvousError)
  /-- The plan refused a change. -/
  | plan (error : PlanError)
  /-- Nobody takes the events any more. -/
  | consumerGone
  /-- A fault of the engine. -/
  | internal (message : String)
  deriving DecidableEq, Repr

namespace EngineError

/-- The words for an error. -/
def message : EngineError → String
  | .gateway e => "gateway error: " ++ e.message
  | .modelTimeout e => "model call failed: " ++ e.message
  | .modelStalled ms =>
    "model stream stalled after " ++ durationText ms ++ " with output already delivered"
  | .frontendTimeout tool ms =>
    "frontend tool " ++ tool ++ " was not completed within " ++ durationText ms
  | .rendezvous e => "rendezvous error: " ++ e.message
  | .plan e => "plan error: " ++ e.message
  | .consumerGone => "event consumer disconnected"
  | .internal m => m

/-- Whether the error ends a run without any further event. -/
def isDisconnect : EngineError → Bool
  | .consumerGone => true
  | _ => false

end EngineError

end AgentRun
