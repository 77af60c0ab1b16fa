import AgentRun.Agent
import AgentRun.Error

/-!
# Spending a budget

A run counts its model calls and its tool calls, each against the limit of its sort, and knows when
it started. A call beyond the limit is denied and not counted, so the counts only grow and never
pass a limit.
-/

namespace AgentRun

/-- What a run has spent of its budget. -/
structure Spending where
  /-- The limits. -/
  budget : Budget
  /-- The model calls that were admitted. -/
  modelCalls : Nat
  /-- The tool calls that were admitted. -/
  toolCalls : Nat
  /-- When the run started, in milliseconds. -/
  started : Nat
  deriving DecidableEq, Repr

/-- Whether all calls of a scope are used up. -/
def Scope.isSpent (s : Scope) (used : Nat) : Bool := s.maxCalls != 0 && s.maxCalls ≤ used

namespace Spending

/-- Nothing is spent yet. -/
def start (budget : Budget) (now : Nat) : Spending := ⟨budget, 0, 0, now⟩

/-- Whether the next model call will be denied. -/
def modelIsSpent (s : Spending) : Bool := s.budget.model.isSpent s.modelCalls

/-- Admits a model call, or denies it. -/
def admitModel (s : Spending) : Except BudgetExceeded Spending :=
  if s.modelIsSpent then .error ⟨.model, s.budget.model.maxCalls⟩
  else .ok { s with modelCalls := s.modelCalls + 1 }

/-- Admits a tool call, or denies it. -/
def admitTool (s : Spending) : Except BudgetExceeded Spending :=
  if s.budget.tool.isSpent s.toolCalls then .error ⟨.tool, s.budget.tool.maxCalls⟩
  else .ok { s with toolCalls := s.toolCalls + 1 }

/-- Whether the run has used up its time. -/
def isTimedOut (s : Spending) (now : Nat) : Bool :=
  (s.budget.runTimeout?.map fun limit => decide (limit ≤ now - s.started)).getD false

end Spending

end AgentRun
