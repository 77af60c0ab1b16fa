/-!
# The worker pool

Backend tools work on a limited number of workers. A worker is busy until the body it runs has
ended, also when the call has timed out long before; a call that finds no free worker waits for one.
-/

namespace AgentRun

/-- The workers of an engine. -/
structure Workers where
  /-- How many there are. -/
  size : Nat
  /-- Whether the pool takes no more work. -/
  closed : Bool
  /-- When each busy worker will be free, in milliseconds, `none` if never. -/
  busy : List (Option Nat)
  deriving DecidableEq, Repr

namespace Workers

/-- A pool without work. -/
def new (size : Nat) : Workers := ⟨size, false, []⟩

/-- The workers that are busy at a time. -/
def busyAt (w : Workers) (now : Nat) : List (Option Nat) :=
  w.busy.filter fun free => (free.map fun t => decide (now < t)).getD true

/-- When a worker will be free, from a time on, `none` if never. -/
def freeFrom (w : Workers) (now : Nat) : Option Nat :=
  if (w.busyAt now).length < w.size then some now
  else ((w.busyAt now).filterMap id).min?

/-- A free worker takes work at a time, until a time that is `none` if the work never ends. -/
def assign (w : Workers) (now : Nat) (until? : Option Nat) : Workers :=
  { w with busy := until? :: w.busyAt now }

end Workers

end AgentRun
