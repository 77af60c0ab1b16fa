import Mathlib.Data.List.Basic
import AgentRun.Run.Stages

/-!
# Reading the journal

What is said about a run is said about the entries of its journal. The functions below pick out the
events, the requests, the calls that were taken up and the calls that an answer obliges the run to
take up. A client submits whenever it likes, so its submissions stand anywhere between the entries
of the run itself: the `trail` of a state is its journal without them, and none of the functions
sees a difference.
-/

namespace AgentRun

namespace Event

/-- The block of a text event. -/
def block? : Event → Option String
  | .content block _ => some block
  | .reasoning block _ => some block
  | _ => none

/-- The call that an event gives the result of. -/
def resultId? : Event → Option String
  | .toolResult callId _ => some callId
  | _ => none

/-- The call that an event is a piece of. -/
def pieceId? : Event → Option String
  | .toolCall p => some p.id
  | _ => none

/-- The plan that an event shows. -/
def plan? : Event → Option Plan
  | .planUpdate p => some p
  | _ => none

end Event

/-! ## Places in a list -/

/-- An element of two lists in a row stands in the first or in the second. -/
theorem split_in_row {α : Type} {l r before after : List α} {x : α}
    (h : l ++ r = before ++ x :: after) :
    (∃ rest, l = before ++ x :: rest ∧ after = rest ++ r) ∨
      ∃ u, before = l ++ u ∧ r = u ++ x :: after := by
  rcases List.append_eq_append_iff.mp h with ⟨u, hbefore, hr⟩ | ⟨u, hl, hx⟩
  · exact Or.inr ⟨u, hbefore, hr⟩
  · cases u with
    | nil => exact Or.inr ⟨[], by simpa using hl.symm, hx.symm⟩
    | cons y u =>
      obtain ⟨rfl, hafter⟩ := List.cons.inj hx
      exact Or.inl ⟨u, hl, hafter⟩

/-- The one place in a list of one element. -/
theorem split_singleton {α : Type} {before after : List α} {x y : α}
    (h : [x] = before ++ y :: after) : before = [] ∧ x = y ∧ after = [] := by
  rcases List.singleton_eq_append_iff.mp h with ⟨rfl, h⟩ | ⟨-, h⟩
  · obtain ⟨rfl, rfl⟩ := List.cons.inj h
    exact ⟨rfl, rfl, rfl⟩
  · cases h

namespace Run

namespace Entry

/-- Whether the client made the entry. -/
def isSubmission : Entry → Bool
  | .submission _ _ _ _ => true
  | _ => false

/-- The event of an entry. -/
def event? : Entry → Option Event
  | .event e => some e
  | _ => none

/-- The request that went out with an entry. -/
def request? : Entry → Option ModelRequest
  | .attempt _ r => some r
  | _ => none

/-- The model call that an entry admits, with its time. -/
def modelCall? : Entry → Option (Nat × ModelRequest)
  | .modelCall time r => some (time, r)
  | _ => none

/-- The call that an entry takes up. -/
def call? : Entry → Option Call
  | .dispatch c => some c
  | _ => none

/-- An entry that is made outside of a call. -/
def isPlain : Entry → Bool
  | .modelCall _ _ => true
  | .attempt _ _ => true
  | .answer _ _ => true
  | .event (.toolResult _ _) => false
  | .event _ => true
  | _ => false

/-- An entry that is made while an answer is put together. -/
def isHeard : Entry → Bool
  | .attempt _ _ => true
  | .event (.toolResult _ _) => false
  | .event _ => true
  | _ => false

/-- An event of the engine itself. -/
def isSaid : Entry → Bool
  | .event (.toolCall _) => false
  | .event (.toolResult _ _) => false
  | .event _ => true
  | _ => false

theorem isPlain_of_heard {e : Entry} (h : e.isHeard = true) : e.isPlain = true := by
  cases e with
  | attempt => rfl
  | event e =>
    cases e with
    | toolResult => cases h
    | _ => rfl
  | _ => cases h

theorem isPlain_of_said {e : Entry} (h : e.isSaid = true) : e.isPlain = true := by
  cases e with
  | event e =>
    cases e with
    | toolResult => cases h
    | _ => rfl
  | _ => cases h

end Entry

/-! ## Kept calls -/

/-- The calls of an answer that the run has to take up: in a planExecute run all of them, in the
other modes only the first, and none of the final answer. -/
def keptOf (mode : AgentMode) (request : ModelRequest) (turn : Turn) : List Call :=
  if request.directive = some summaryDirective then []
  else
    match mode with
    | .planExecute => turn.calls
    | _ => turn.calls.take 1

/-- The kept calls of an entry. -/
def Entry.kept (mode : AgentMode) : Entry → List Call
  | .answer request turn => keptOf mode request turn
  | _ => []

/-- The kept calls of a journal, answer after answer. -/
def keptCalls (mode : AgentMode) (j : List Entry) : List Call := j.flatMap (Entry.kept mode)

/-- The calls that were taken up. -/
def dispatched (j : List Entry) : List Call := j.filterMap Entry.call?

/-- The events of a journal. -/
def eventsOf (j : List Entry) : List Event := j.filterMap Entry.event?

/-- The requests of a journal. -/
def requestsOf (j : List Entry) : List ModelRequest := j.filterMap Entry.request?

/-- The model calls of a journal, with their times. -/
def callsOf (j : List Entry) : List (Nat × ModelRequest) := j.filterMap Entry.modelCall?

section Append

variable {mode : AgentMode} {i j : List Entry} {es : List Event}

@[simp] theorem keptCalls_append : keptCalls mode (i ++ j) = keptCalls mode i ++ keptCalls mode j :=
  List.flatMap_append

@[simp] theorem dispatched_append : dispatched (i ++ j) = dispatched i ++ dispatched j :=
  List.filterMap_append

@[simp] theorem eventsOf_append : eventsOf (i ++ j) = eventsOf i ++ eventsOf j :=
  List.filterMap_append

@[simp] theorem requestsOf_append : requestsOf (i ++ j) = requestsOf i ++ requestsOf j :=
  List.filterMap_append

@[simp] theorem callsOf_append : callsOf (i ++ j) = callsOf i ++ callsOf j :=
  List.filterMap_append

@[simp] theorem eventsOf_map_event : eventsOf (es.map .event) = es := by
  simp [eventsOf, Function.comp_def, Entry.event?]

@[simp] theorem keptCalls_map_event : keptCalls mode (es.map .event) = [] := by
  simp [keptCalls, Entry.kept]

@[simp] theorem requestsOf_map_event : requestsOf (es.map .event) = [] := by
  simp [requestsOf, Function.comp_def, Entry.request?]

@[simp] theorem callsOf_map_event : callsOf (es.map .event) = [] := by
  simp [callsOf, Function.comp_def, Entry.modelCall?]

end Append

/-- The calls whose results were shown. -/
def resultIds (j : List Entry) : List String := (eventsOf j).filterMap Event.resultId?

/-- The plans that were shown. -/
def plansShown (j : List Entry) : List Plan := (eventsOf j).filterMap Event.plan?

section Shown

variable {i j : List Entry}

@[simp] theorem resultIds_append : resultIds (i ++ j) = resultIds i ++ resultIds j := by
  simp [resultIds]

@[simp] theorem plansShown_append : plansShown (i ++ j) = plansShown i ++ plansShown j := by
  simp [plansShown]

end Shown

/-! ## Quiet entries -/

/-- Whether an entry obliges the run to nothing, takes up no call and shows neither a result nor a
plan. -/
def Entry.isQuiet : Entry → Bool
  | .answer _ _ => false
  | .dispatch _ => false
  | .event (.toolResult _ _) => false
  | .event (.planUpdate _) => false
  | _ => true

section Quiet

variable {mode : AgentMode} {u : List Entry}

theorem keptCalls_quiet (h : ∀ e ∈ u, e.isQuiet = true) : keptCalls mode u = [] :=
  List.flatMap_eq_nil_iff.mpr fun e he => by
    cases e with
    | answer request turn => cases h _ he
    | _ => rfl

theorem dispatched_quiet (h : ∀ e ∈ u, e.isQuiet = true) : dispatched u = [] :=
  List.filterMap_eq_nil_iff.mpr fun e he => by
    cases e with
    | dispatch call => cases h _ he
    | _ => rfl

theorem mem_eventsOf {e : Event} : e ∈ eventsOf u ↔ .event e ∈ u := by
  refine List.mem_filterMap.trans ⟨fun ⟨f, hf, hfe⟩ => ?_, fun h => ⟨_, h, rfl⟩⟩
  cases f with
  | event f => exact Option.some.inj hfe ▸ hf
  | _ => cases hfe

theorem resultIds_quiet (h : ∀ e ∈ u, e.isQuiet = true) : resultIds u = [] :=
  List.filterMap_eq_nil_iff.mpr fun e he => by
    cases e with
    | toolResult callId result => cases h _ (mem_eventsOf.mp he)
    | _ => rfl

theorem plansShown_quiet (h : ∀ e ∈ u, e.isQuiet = true) : plansShown u = [] :=
  List.filterMap_eq_nil_iff.mpr fun e he => by
    cases e with
    | planUpdate plan => cases h _ (mem_eventsOf.mp he)
    | _ => rfl

end Quiet

/-! ## What is true throughout a journal -/

/-- Every entry stands to the entries before it as `P` says. -/
def Throughout (P : List Entry → Entry → Prop) (j : List Entry) : Prop :=
  ∀ before e after, j = before ++ e :: after → P before e

section Throughout

variable {P : List Entry → Entry → Prop} {j : List Entry} {e : Entry}

theorem throughout_nil : Throughout P [] := fun before e after h => by simp at h

theorem Throughout.snoc (h : Throughout P j) (he : P j e) : Throughout P (j ++ [e]) := by
  intro before f after heq
  rcases split_in_row heq with ⟨rest, hj, -⟩ | ⟨u, rfl, hlast⟩
  · exact h before f rest hj
  · obtain ⟨rfl, rfl, -⟩ := split_singleton hlast
    rwa [List.append_nil]

end Throughout

/-! ## The trail -/

namespace State

/-- The journal without what the client made of it. -/
def trail (s : State) : List Entry := s.journal.filter fun e => !e.isSubmission

variable {s : State}

theorem events_eq_eventsOf : s.events = eventsOf s.journal := by
  refine congrArg s.journal.filterMap (funext fun e => ?_)
  cases e <;> rfl

theorem requests_eq_requestsOf : s.requests = requestsOf s.journal := by
  refine congrArg s.journal.filterMap (funext fun e => ?_)
  cases e <;> rfl

/-- A reading of the journal that passes over submissions reads the trail. -/
theorem flatMap_trail {α : Type} {f : Entry → List α}
    (h : ∀ ticket key payload ack, f (.submission ticket key payload ack) = []) :
    s.trail.flatMap f = s.journal.flatMap f := by
  unfold trail
  induction s.journal with
  | nil => rfl
  | cons e j ih =>
    rw [List.filter_cons]
    cases e with
    | submission ticket key payload ack => rw [List.flatMap_cons, h, List.nil_append]; exact ih
    | _ => exact congrArg (f _ ++ ·) ih

theorem filterMap_trail {α : Type} {f : Entry → Option α}
    (h : ∀ ticket key payload ack, f (.submission ticket key payload ack) = none) :
    s.trail.filterMap f = s.journal.filterMap f := by
  rw [List.filterMap_eq_flatMap_toList, List.filterMap_eq_flatMap_toList]
  exact flatMap_trail fun ticket key payload ack => by rw [h]; rfl

@[simp] theorem eventsOf_trail : eventsOf s.trail = s.events :=
  (filterMap_trail fun _ _ _ _ => rfl).trans events_eq_eventsOf.symm

@[simp] theorem requestsOf_trail : requestsOf s.trail = s.requests :=
  (filterMap_trail fun _ _ _ _ => rfl).trans requests_eq_requestsOf.symm

theorem callsOf_trail : callsOf s.trail = callsOf s.journal :=
  filterMap_trail fun _ _ _ _ => rfl

theorem dispatched_trail : dispatched s.trail = dispatched s.journal :=
  filterMap_trail fun _ _ _ _ => rfl

theorem keptCalls_trail {mode : AgentMode} : keptCalls mode s.trail = keptCalls mode s.journal :=
  flatMap_trail fun _ _ _ _ => rfl

end State

end Run

end AgentRun
