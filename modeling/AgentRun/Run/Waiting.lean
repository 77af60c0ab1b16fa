import AgentRun.Run.State

/-!
# Waiting

While a run waits, its client takes the events that are there and does what it will, and time goes
by. `passTime` lets the clock run to a given time, `waitFor` waits for something under a deadline
and `awaitSubmission` waits for a payload of the client. Something that is ready at its deadline
counts as in time. A run that takes many steps without a wait gives way to its client now and then
(`takeStep`).
-/

namespace AgentRun.Run

open State

/-- The client does something now. -/
def perform (act : ClientAct) (s : State) : State :=
  match act with
  | .submit ticket key payload =>
    let (ack, r) := s.world.rendezvous.submit key payload
    (s.withRendezvous r).note (.submission ticket key payload ack)
  | .leave => { s with channel := s.channel.leave }

/-- Puts an appointment behind those that are not later. -/
def schedule (a : Appointment) : List Appointment → List Appointment
  | [] => [a]
  | b :: rest => if a.time < b.time then a :: b :: rest else b :: schedule a rest

/-- The client does something now or makes an appointment for it. -/
def undertake (i : Intent) (s : State) : State :=
  match i.after with
  | none => perform i.act s
  | some d => { s with agenda := schedule ⟨s.now + d, i.act⟩ s.agenda }

/-- The client undertakes several things in order. -/
def undertakeAll (intents : List Intent) (s : State) : State :=
  intents.foldl (fun s i => undertake i s) s

/-- The client takes up to `n` events, and does what it will on each. -/
def takeEvents (env : Env) : Nat → State → State
  | 0, s => s
  | n + 1, s =>
    match s.channel.take with
    | (none, _) => s
    | (some _, c) =>
      let s := { s with channel := c, lastTaken := s.now }
      takeEvents env n (undertakeAll (env.client.react env.runId c.taken) s)

/-- The client takes all events that are there. -/
def clientTurn (env : Env) (s : State) : State := takeEvents env s.channel.queue.length s

/-- The appointments that are due now are kept. -/
def keepDue (s : State) : State :=
  let due := s.agenda.takeWhile fun a => a.time ≤ s.now
  let rest := s.agenda.dropWhile fun a => a.time ≤ s.now
  due.foldl (fun s a => perform a.act s) { s with agenda := rest }

/-- The first appointment, if it is due by a time, as kept at its time together with all others of
that time. -/
def keepNext? (limit : Nat) (s : State) : Option State :=
  match s.agenda with
  | a :: _ => if a.time ≤ limit then some (keepDue (s.reach a.time)) else none
  | [] => none

/-- The appointments of up to `n` times that are due by a time are kept. -/
def keepAppointments (limit : Nat) : Nat → State → State
  | 0, s => s
  | n + 1, s =>
    match keepNext? limit s with
    | some s => keepAppointments limit n s
    | none => s

/-- The client leaves if it has been without an event for too long before a time. -/
def losePatience (env : Env) (limit : Nat) (s : State) : State :=
  match env.client.patience with
  | none => s
  | some p =>
    if s.channel.connected ∧ s.lastTaken + p < limit then
      { s with channel := s.channel.leave, gaveUp := true }
    else s

/-- The run waits, and the client does all that it can do now. -/
def giveWay (env : Env) (s : State) : State :=
  { keepDue (clientTurn env (keepDue s)) with stretch := 0 }

/-- The clock runs up to a time, with all that the client does until then. -/
def passTime (env : Env) (time : Nat) (s : State) : State :=
  let s := giveWay env s
  (losePatience env time (keepAppointments time s.agenda.length s)).reach time

/-- The clock runs until everything that the client still has in mind is done. -/
def passAgenda (env : Env) (s : State) : State :=
  let s := giveWay env s
  (s.agenda.getLast?.map fun a => passTime env a.time s).getD s

/-- How many steps a run takes in a row before it gives way. -/
def stretchLimit : Nat := 128

/-- The run gives way if it took as many steps in a row as it may. -/
def giveWayIfDue (env : Env) (s : State) : State :=
  if s.stretch < stretchLimit then s else giveWay env s

/-- The run takes a step: it passes an event on, or takes what it was waiting for. -/
def takeStep (env : Env) (s : State) : State :=
  let s := giveWayIfDue env s
  { s with stretch := s.stretch + 1 }

/-- The run waits until a time, unless it is there already, and goes on. -/
def pause (env : Env) (time : Nat) (s : State) : State :=
  takeStep env (if s.now < time then passTime env time s else s)

/-- Waits for something that is ready after some time, `none` for never, but not beyond a deadline.
It answers whether it was ready in time; waiting for what never comes without a deadline ends
everything. -/
def waitFor (env : Env) (takes : Option Nat) (deadline : Option Nat) : RunM Bool := do
  let s ← get
  match takes, deadline with
  | some 0, _ => return true
  | some d, none =>
    set (pause env (s.now + d) s)
    return true
  | some d, some t =>
    set (pause env (min (s.now + d) t) s)
    return decide (s.now + d ≤ t)
  | none, some t =>
    set (pause env t s)
    return false
  | none, none =>
    set (passAgenda env s)
    throw .stuck

/-- How a wait for the client ends. -/
inductive WaitResult where
  /-- A payload came. -/
  | payload (value : Json)
  /-- Nothing came in time. -/
  | timeout
  /-- Nothing can come any more: the client is gone, or the wait was abandoned. -/
  | gone
  deriving DecidableEq, Repr

/-- How things stand with a wait: its payload, or that none can come, if either is so. -/
def standing? (h : Handle) (s : State) : Option WaitResult :=
  match s.world.rendezvous.look? h with
  | some (.ok value) => some (.payload value)
  | some (.error _) => some .gone
  | none => if s.channel.connected then none else some .gone

/-- Until when the client stays if no event comes, when it is asked about a time. -/
def staysUntil (env : Env) (s : State) (time : Nat) : Nat :=
  match env.client.patience with
  | some p => min time (s.lastTaken + p)
  | none => time

/-- Waits for a payload while the appointments of up to `n` times are kept by a time. -/
def awaitAppointments (h : Handle) (limit : Nat) : Nat → State → Option WaitResult × State
  | n, s =>
    match standing? h s with
    | some result => (some result, s)
    | none =>
      match n, keepNext? limit s with
      | n + 1, some s => awaitAppointments h limit n s
      | _, _ => (none, s)

/-- How a wait for a payload ends that has to wait. -/
def awaitClientUntil (env : Env) (h : Handle) (deadline : Nat) (s : State) : WaitResult × State :=
  let s := giveWay env s
  let limit := staysUntil env s deadline
  match awaitAppointments h limit s.agenda.length s with
  | (some result, s) => (result, s)
  | (none, s) =>
    if limit < deadline then (.gone, losePatience env deadline s)
    else (.timeout, s.reach deadline)

/-- Waits for a payload until a deadline. A deadline that is there already is not waited for. -/
def awaitSubmission (env : Env) (h : Handle) (deadline : Nat) (s : State) : WaitResult × State :=
  let s := giveWayIfDue env s
  let (result, s) :=
    match standing? h s with
    | some result => (result, s)
    | none => if deadline ≤ s.now then (.timeout, s) else awaitClientUntil env h deadline s
  (result, takeStep env s)

end AgentRun.Run
