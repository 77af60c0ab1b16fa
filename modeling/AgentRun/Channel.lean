import AgentRun.Event

/-!
# The channel of events

The events of a run go through a channel of limited room to one consumer, who takes them in order
and may leave. At most one `finish` goes in and nothing after it: a later event is dropped in
silence.

`Channel.put` is what happens to one event, `Channel.take` gives the consumer the next one, and
`Channel.leave` is the consumer's end.
-/

namespace AgentRun

/-- The way from a run to the consumer of its events. -/
structure Channel where
  /-- How many events may wait. -/
  capacity : Nat
  /-- The events that wait, the oldest first. -/
  queue : List Event
  /-- The events that the consumer took, the oldest first. -/
  taken : List Event
  /-- Whether a `finish` was passed. -/
  finished : Bool
  /-- Whether the consumer is there. -/
  connected : Bool
  deriving DecidableEq, Repr

/-- What happened to an event. -/
inductive PutResult where
  /-- It waits for the consumer, or was dropped behind a `finish`. -/
  | done
  /-- There is no room for it now. -/
  | full
  /-- The consumer is gone. -/
  | gone
  deriving DecidableEq, Repr

namespace Channel

/-- A channel with nothing in it and a consumer at its end. -/
def new (capacity : Nat) : Channel := ⟨capacity, [], [], false, true⟩

/-- Lets an event wait for the consumer if there is room. -/
def enqueue (c : Channel) (e : Event) : PutResult × Channel :=
  if !c.connected then (.gone, c)
  else if c.queue.length < c.capacity then (.done, { c with queue := c.queue ++ [e] })
  else (.full, c)

/-- Puts an event in. A `finish` counts as passed even when there is no room for it or nobody to
take it. -/
def put (c : Channel) (e : Event) : PutResult × Channel :=
  if c.finished then (.done, c) else { c with finished := e.isFinish }.enqueue e

/-- Puts events in until one does not go through. -/
def putAll (c : Channel) : List Event → PutResult × Channel
  | [] => (.done, c)
  | e :: rest =>
    match c.put e with
    | (.done, c) => putAll c rest
    | other => other

/-- The next event for the consumer. -/
def take (c : Channel) : Option Event × Channel :=
  match c.queue with
  | [] => (none, c)
  | e :: rest => (some e, { c with queue := rest, taken := c.taken ++ [e] })

/-- The consumer leaves; what waits is lost. -/
def leave (c : Channel) : Channel := { c with queue := [], connected := false }

end Channel

end AgentRun
