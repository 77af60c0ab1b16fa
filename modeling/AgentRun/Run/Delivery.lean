import AgentRun.Run.Waiting

/-!
# Delivering events

A run gives its events to the channel one by one and waits while there is no room. It also speaks
for itself: the markers of its stages, the state of its plan and texts of its own.
-/

namespace AgentRun.Run

/-- Mints a name. -/
def mint (env : Env) (kind : IdKind) : RunM String := do
  let s ← get
  set { s with assembly := { s.assembly with minted := s.assembly.minted + 1 } }
  return kind.mint env.supply s.assembly.minted

/-- Notes that an event is on its way, unless a `finish` went before it. -/
def noteEvent (passed : Bool) (e : Event) (c : Channel) (s : State) : State :=
  let s := { s with channel := c }
  if passed then s else s.note (.event e)

/-- Gives an event to the channel, which is a step of the run. When there is no room, the run waits
and the client gets its turn first; the step is then the first of a new stretch. -/
def emit (env : Env) (e : Event) : RunM Unit := do
  let s ← get
  let s := if s.channel.finished then s else takeStep env s
  match s.channel.put e with
  | (.done, c) => set (noteEvent s.channel.finished e c s)
  | (.gone, c) =>
    set { s with channel := c }
    fail .consumerGone
  | (.full, c) =>
    let s := { clientTurn env (keepDue { s with channel := c }) with stretch := 1 }
    match s.channel.enqueue e with
    | (.done, c) => set (noteEvent false e c s)
    | (.gone, c) =>
      set { s with channel := c }
      fail .consumerGone
    | (.full, c) =>
      set { s with channel := c }
      throw .stuck

/-- Gives several events to the channel. -/
def emitAll (env : Env) : List Event → RunM Unit
  | [] => return ()
  | e :: rest => do
    emit env e
    emitAll env rest

/-- Closes the open blocks of text. -/
def closeBlocks : RunM Unit := modify fun s => { s with assembly := s.assembly.closeBlocks }

/-- Marks the start of a stage. -/
def stageMarker (env : Env) (label : String) : RunM Unit := do
  closeBlocks
  emit env (.stage label)

/-- Shows the plan. -/
def showPlan (env : Env) : RunM Unit := do
  emit env (.planUpdate (← get).plan)

/-- Puts an entry into the conversation. -/
def addMessage (m : Message) : RunM Unit := modify fun s => { s with history := s.history ++ [m] }

/-- Says something of the engine's own, in a block of its own. -/
def say (env : Env) (text : String) : RunM Unit := do
  closeBlocks
  let block ← mint env .block
  emit env (.content block text)
  addMessage (.assistant (.ofText text))

/-- Ends the events of the run. -/
def finish (env : Env) (reason : FinishReason) : RunM Unit := do
  closeBlocks
  emit env (.finish reason)

end AgentRun.Run
