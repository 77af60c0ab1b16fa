import AgentRun.Budget

/-!
# Attempts

A call that may time out is attempted again at once, until an attempt gives a value in time or all
attempts are used up. `retrying` is this rule over any effects; `Scope.call` is its outcome when it
is known how long each attempt would take.
-/

namespace AgentRun

/-- Makes attempts, numbered from `n`, until one gives a value. -/
def retrying {m : Type → Type} [Monad m] {α : Type} (attempt : Nat → m (Option α)) :
    Nat → Nat → m (Option α)
  | 0, _ => pure none
  | left + 1, n => do
    match ← attempt n with
    | some value => pure (some value)
    | none => retrying attempt left (n + 1)

/-- How a call of a scope came out. -/
structure CallOutcome (α : Type) where
  /-- The value, or `none` when every attempt timed out. A call that never ends has no outcome. -/
  value : Option α
  /-- The time it took, in milliseconds. -/
  elapsed : Nat
  /-- When each of its attempts began. -/
  begun : List Nat
  deriving DecidableEq, Repr

/-- One attempt under a clock and a list of the attempts' beginnings, the latest first. It takes the
time until its value is ready, `none` if it never is, or until the time limit, whichever comes
first; a value that is ready at the limit counts. An attempt that never ends stops everything. -/
def timedAttempt {α : Type} (limit : Option Nat) (takes : Nat → Option Nat) (value : Nat → α)
    (n : Nat) : OptionT (StateM (Nat × List Nat)) (Option α) := fun (now, begun) =>
  let begun := now :: begun
  match takes n, limit with
  | some d, none => (some (some (value n)), now + d, begun)
  | some d, some t =>
    if d ≤ t then (some (some (value n)), now + d, begun) else (some none, now + t, begun)
  | none, some t => (some none, now + t, begun)
  | none, none => (none, now, begun)

/-- A call whose attempts take known times and have known values: its outcome if it ends, and the
beginnings of its attempts. -/
def Scope.call {α : Type} (s : Scope) (takes : Nat → Option Nat) (value : Nat → α) :
    Option (CallOutcome α) × List Nat :=
  let (result, now, begun) :=
    (retrying (timedAttempt s.timeout? takes value) s.attempts 0).run (0, [])
  (result.map fun value => ⟨value, now, begun.reverse⟩, begun.reverse)

/-- The error of a call whose attempts all timed out. -/
def Scope.timeoutError (s : Scope) : CallTimeout := ⟨s.attempts, s.timeoutMs⟩

end AgentRun
