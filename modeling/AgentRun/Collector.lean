import AgentRun.Turn

/-!
# Finding the call of a fragment

A decoder at work does not look through the calls of an answer. It keeps where the call of an id
stands, where the call of a model's index stands and where the call stands that was opened last, and
looks the place of a fragment up in these, one after another.
-/

namespace AgentRun

/-- An answer as far as its chunks are there, with the places of its calls. -/
structure Collector extends Assembly where
  /-- The place of the call of an id. -/
  byId : List (String × Nat)
  /-- The place of the call that was opened at an index of the model. -/
  byIndex : List (Nat × Nat)
  /-- The place of the call that was opened last. -/
  lastOpened : Option Nat
  deriving DecidableEq, Repr

/-- The id that a fragment carries. An empty one is none. -/
def Fragment.ownId? (f : Fragment) : Option String := f.id.filter fun id => id != ""

namespace Collector

def start (minted : Nat) : Collector := ⟨Assembly.start minted, [], [], none⟩

/-- The places by index when a call is opened. The first call at an index keeps it. -/
def noteIndex (index : Option Nat) (place : Nat) (byIndex : List (Nat × Nat)) : List (Nat × Nat) :=
  match index with
  | none => byIndex
  | some i => if (byIndex.lookup i).isSome then byIndex else (i, place) :: byIndex

def openCall (id : String) (index : Option Nat) (k : Collector) : Nat × Collector :=
  (k.calls.length, { k with
    calls := k.calls ++ [⟨id, "", ""⟩]
    byId := (id, k.calls.length) :: k.byId
    byIndex := noteIndex index k.calls.length k.byIndex
    lastOpened := some k.calls.length })

/-- The place of the call that a fragment belongs to. Where there is none, a call is opened. -/
def placeOf (supply : Supply) (f : Fragment) (k : Collector) : Nat × Collector :=
  match f.ownId? with
  | some id =>
    match k.byId.lookup id with
    | some place => (place, k)
    | none => k.openCall id f.index
  | none =>
    -- What has no id goes on with the call opened last, whatever its index says.
    match k.lastOpened with
    | some place => (place, k)
    | none =>
      match f.index.bind fun i => k.byIndex.lookup i with
      | some place => (place, k)
      | none =>
        openCall (IdKind.call.mint supply k.minted) f.index { k with minted := k.minted + 1 }

def pushFragment (supply : Supply) (f : Fragment) (k : Collector) : Event × Collector :=
  let (place, k) := k.placeOf supply f
  let id := (k.calls.getD place ⟨"", "", ""⟩).id
  (.toolCall ⟨id, f.name, f.callType, f.arguments.getD "", place⟩,
    { k with calls := k.calls.modify place (Assembly.OpenCall.add f) })

def pushFragments (supply : Supply) : List Fragment → Collector → List Event × Collector
  | [], k => ([], k)
  | f :: rest, k =>
    let (event, k) := k.pushFragment supply f
    let (events, k) := pushFragments supply rest k
    (event :: events, k)

/-- A chunk: its reasoning, its text and then its fragments. -/
def push (supply : Supply) (c : Chunk) (k : Collector) : List Event × Collector :=
  let (thought, a) := k.toAssembly.pushText (Assembly.pushReasoning supply) c.reasoning
  let (said, a) := a.pushText (Assembly.pushContent supply) c.content
  let (called, k) :=
    if c.toolCalls.isEmpty then ([], { k with toAssembly := a })
    else pushFragments supply c.toolCalls { k with toAssembly := a.closeBlocks }
  (thought ++ said ++ called, { k with finishReason := c.finishReason.or k.finishReason })

def pushAll (supply : Supply) : List Chunk → Collector → List Event × Collector
  | [], k => ([], k)
  | c :: rest, k =>
    let (events, k) := k.push supply c
    let (more, k) := pushAll supply rest k
    (events ++ more, k)

/-- What is left for the next answer: only the count of minted ids. -/
def next (k : Collector) : Collector := start k.minted

end Collector

end AgentRun
