import AgentRun.Error
import AgentRun.Json.Document

/-!
# Rendezvous

A run that waits for its client registers the wait under its run and its call; a submission from
outside is handed to the wait that is pending there. A wait is held by a handle with a number of
its own, so a handle that is given up removes its own slot and never that of a later wait.
-/

namespace AgentRun

/-- The run and the call that a wait is for. -/
structure WaitKey where
  runId : String
  callId : String
  deriving DecidableEq, Repr

/-- A wait, held by the one who waits. -/
structure Handle where
  /-- What it is for. -/
  key : WaitKey
  /-- The number of the registration. -/
  token : Nat
  deriving DecidableEq, Repr

/-- The answer to a submission. -/
structure SubmitAck where
  /-- Whether it reached a wait. -/
  accepted : Bool
  /-- Why it did not. -/
  reason : Option String
  deriving DecidableEq, Repr

namespace SubmitAck

/-- The submission reached a wait. -/
def ok : SubmitAck := ⟨true, none⟩

/-- No wait is pending for it. -/
def notPending : SubmitAck := ⟨false, some "no pending request"⟩

/-- The document of an answer. -/
def toJson (a : SubmitAck) : Json :=
  .obj ([("accepted", .bool a.accepted)] ++ Record.maybe "reason" .str a.reason)

/-- What is looked at of the document of an answer. -/
def outline : Outline :=
  .flat ["accepted", "reason"]

/-- Reads the document of an answer. -/
def ofJson? (j : Json) : Option SubmitAck := do
  let r ← j.record? outline.names
  return {
    accepted := ← r.required "accepted" Json.bool?
    reason := ← r.optional "reason" Json.str? }

instance : Documented SubmitAck := ⟨outline, ofJson?, toJson⟩

end SubmitAck

/-- The pending waits, their holders, and the payloads that were handed over and not taken yet. A
payload goes in at a slot and comes out at the handle that is held. -/
structure Rendezvous where
  /-- The pending waits. -/
  slots : List Handle
  /-- The waits that are held by those who wait. -/
  held : List Handle
  /-- The payloads by the numbers of their waits. -/
  mail : List (Nat × Json)
  /-- The number of the next registration. -/
  nextToken : Nat
  deriving DecidableEq, Repr

namespace Rendezvous

/-- No waits. -/
def empty : Rendezvous := ⟨[], [], [], 0⟩

/-- The pending wait for a run and a call. -/
def slot? (r : Rendezvous) (key : WaitKey) : Option Handle := r.slots.find? fun h => h.key == key

/-- Whether a wait is pending for a run and a call. -/
def isPending (r : Rendezvous) (key : WaitKey) : Bool := (r.slot? key).isSome

/-- The number of pending waits. -/
def pendingCount (r : Rendezvous) : Nat := r.slots.length

/-- Registers a wait. A registration that is refused uses up a number as well. -/
def register (r : Rendezvous) (key : WaitKey) : Except RendezvousError Handle × Rendezvous :=
  let next := { r with nextToken := r.nextToken + 1 }
  if r.isPending key then (.error (.alreadyPending key.runId key.callId), next)
  else
    let handle : Handle := ⟨key, r.nextToken⟩
    (.ok handle, { next with slots := handle :: r.slots, held := handle :: r.held })

/-- Hands a payload to the pending wait, whose slot is then gone. A wait that nobody holds any more
takes none. -/
def submit (r : Rendezvous) (key : WaitKey) (payload : Json) : SubmitAck × Rendezvous :=
  match r.slot? key with
  | none => (.notPending, r)
  | some h =>
    let freed := { r with slots := r.slots.filter (· != h) }
    if r.held.contains h then (.ok, { freed with mail := (h.token, payload) :: r.mail })
    else (.notPending, freed)

/-- The payload that was handed to a wait. -/
def received? (r : Rendezvous) (h : Handle) : Option Json := r.mail.lookup h.token

/-- What there is for a wait, whatever the time: its payload, or that its slot is gone and nobody
can hand it one any more. -/
def look? (r : Rendezvous) (h : Handle) : Option (Except RendezvousError Json) :=
  match r.received? h with
  | some payload => some (.ok payload)
  | none => if r.slots.contains h then none else some (.error .abandoned)

/-- What a wait comes to when it is looked at. That its time is up counts only when there is nothing
else for it. -/
def poll? (r : Rendezvous) (h : Handle) (timeoutMs : Nat) (isUp : Bool) :
    Option (Except RendezvousError Json) :=
  (r.look? h).or (if isUp then some (.error (.timeout timeoutMs)) else none)

/-- Gives a handle up: its slot goes, if it is still there, and its payload, if it was not taken. -/
def release (r : Rendezvous) (h : Handle) : Rendezvous :=
  { r with
    slots := r.slots.filter (· != h)
    held := r.held.filter (· != h)
    mail := r.mail.filter fun m => m.1 != h.token }

end Rendezvous

end AgentRun
