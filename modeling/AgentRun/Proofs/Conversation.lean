import AgentRun.Proofs.WholeRun

/-!
# The conversation in the requests

Between the commitment of an answer and the result of its last call, the conversation of a run ends
with an assistant message whose calls are answered only in part; no request goes out then. So every
request has a conversation in which each call is answered, in order, and the conversation of a
request is only ever continued by those of later ones.
-/

namespace AgentRun

/-- An assistant message with a result for each of its calls, in order. -/
structure Exchange where
  message : AssistantMessage
  /-- The results. -/
  replies : List ToolMessage
  paired : replies.map (fun m => (m.callId, m.name)) =
    message.toolCalls.map (fun b => (b.id, b.name))

/-- The messages of an exchange. -/
def Exchange.messages (x : Exchange) : List Message := .assistant x.message :: x.replies.map .tool

namespace Run

/-- The messages of several exchanges. -/
def conversation (xs : List Exchange) : List Message := xs.flatMap Exchange.messages

/-- A conversation that was begun with some messages and in which calls are still to be answered: it
consists of exchanges, or its last assistant message has the results of its calls but for those. -/
inductive Awaits (start : List Message) : List Call → List Message → Prop
  | nothing (xs : List Exchange) : Awaits start [] (start ++ conversation xs)
  | results {owed : List Call} (xs : List Exchange) (m : AssistantMessage)
      (replies : List ToolMessage)
      (h : m.toolCalls.map (fun b => (b.id, b.name)) =
        replies.map (fun r => (r.callId, r.name)) ++ owed.map fun c => (c.id, c.name)) :
      Awaits start owed (start ++ conversation xs ++ (.assistant m :: replies.map .tool))

namespace Awaits

variable {start history : List Message} {owed : List Call}

/-- A conversation in which no call is open consists of exchanges. -/
theorem settled (h : Awaits start [] history) : ∃ xs, history = start ++ conversation xs := by
  cases h with
  | nothing xs => exact ⟨xs, rfl⟩
  | results xs m replies h =>
    refine ⟨xs ++ [⟨m, replies, by simpa using h.symm⟩], ?_⟩
    simp [conversation, Exchange.messages]

/-- The engine says something. -/
theorem said (h : Awaits start [] history) (text : String) :
    Awaits start [] (history ++ [.assistant (.ofText text)]) := by
  obtain ⟨xs, rfl⟩ := h.settled
  exact .results xs (.ofText text) [] rfl

/-- A turn opens the calls that are kept of it. -/
theorem committed (h : Awaits start [] history) (turn : Turn) (calls : List Call) :
    Awaits start calls (Run.committed history turn calls) := by
  obtain ⟨xs, rfl⟩ := h.settled
  unfold Run.committed
  by_cases hsilent : ({ turn with calls := calls } : Turn).isSilent = true
  · have none : calls = [] := by
      simp only [Turn.isSilent, Bool.and_eq_true, List.isEmpty_iff] at hsilent
      exact hsilent.2
    subst none
    simp only [hsilent, if_true]
    exact .nothing xs
  · simp only [hsilent]
    refine .results xs _ [] ?_
    simp [Turn.message, Function.comp_def]

/-- A result closes the first call that is open. -/
theorem answered {call : Call} (h : Awaits start (call :: owed) history) (result : Json) :
    Awaits start owed (history ++ [.tool ⟨call.id, call.name, result⟩]) := by
  cases h with
  | results xs m replies h =>
    rw [List.append_assoc, List.cons_append]
    have grown : replies.map Message.tool ++ [.tool ⟨call.id, call.name, result⟩] =
        (replies ++ [(⟨call.id, call.name, result⟩ : ToolMessage)]).map .tool := by simp
    rw [grown]
    refine .results xs m _ ?_
    simpa using h

end Awaits

/-! ## The requests of a run -/

/-- Requests whose conversations consist of exchanges, each continuing those before it. -/
structure WellAsked (start : List Message) (rs : List ModelRequest) : Prop where
  settled : ∀ r ∈ rs, ∃ xs, r.history = start ++ conversation xs
  ordered : rs.Pairwise fun a b => a.history <+: b.history

/-- A point between two acts with the requests that led to it. -/
structure Conversing (start : List Message) (p : Point) : Prop where
  awaits : Awaits start p.owed p.ledger.history
  asked : WellAsked start (requestsOf p.trail)
  continued : ∀ r ∈ requestsOf p.trail, r.history <+: p.ledger.history

variable {env : Env} {mode : AgentMode} {start : List Message} {t u : List Entry} {l l' : Ledger}
  {owed owed' : List Call} {p q : Point}

/-- Requests with the conversation of a point, sent when no call is open. -/
theorem Conversing.asks (h : Conversing start ⟨owed, t, l⟩)
    (hu : ∀ r ∈ requestsOf u, owed = [] ∧ r.history = l.history) :
    WellAsked start (requestsOf (t ++ u)) := by
  rw [requestsOf_append]
  refine ⟨fun r hr => ?_, List.pairwise_append.mpr ⟨h.asked.ordered, ?_, fun a ha b hb => ?_⟩⟩
  · rcases List.mem_append.mp hr with hr | hr
    · exact h.asked.settled r hr
    · obtain ⟨rfl, heq⟩ := hu r hr
      exact heq ▸ h.awaits.settled
  · refine List.pairwise_of_forall_mem_list fun a ha b hb => ?_
    have same : a.history = b.history := (hu a ha).2.trans (hu b hb).2.symm
    exact same ▸ List.prefix_rfl
  · rw [(hu b hb).2]
    exact h.continued a ha

/-- A step from a point that sends requests only while no call is open. -/
theorem Conversing.extend (h : Conversing start ⟨owed, t, l⟩)
    (hu : ∀ r ∈ requestsOf u, owed = [] ∧ r.history = l.history)
    (hgrown : l.history <+: l'.history) (hawaits : Awaits start owed' l'.history) :
    Conversing start ⟨owed', t ++ u, l'⟩ := by
  refine ⟨hawaits, h.asks hu, fun r hr => ?_⟩
  rcases List.mem_append.mp (requestsOf_append ▸ hr) with hr | hr
  · exact (h.continued r hr).trans hgrown
  · exact (hu r hr).2 ▸ hgrown

theorem committed_extends (history : List Message) (turn : Turn) (calls : List Call) :
    history <+: committed history turn calls := by
  unfold committed
  dsimp only
  split
  · exact List.prefix_rfl
  · exact List.prefix_append _ _

theorem AnswerTrail.requests_eq {supply : Supply} {request : ModelRequest} {turn : Turn}
    (h : AnswerTrail supply request u turn) : ∀ r ∈ requestsOf u, r = request := by
  obtain ⟨v, rfl, hv, -⟩ := h.eq_append
  intro r hr
  rw [requestsOf_append] at hr
  rcases List.mem_append.mp hr with hr | hr
  · exact hv.requests_eq r hr
  · exact absurd hr List.not_mem_nil

/-- A call that is answered adds its result to the conversation. -/
theorem Answered.history_eq {call : Call} (h : Answered call l u l') :
    ∃ result, l'.history = l.history ++ [.tool ⟨call.id, call.name, result⟩] := by
  cases h with
  | answered args result hu hshown => exact ⟨result, rfl⟩

/-! ## From act to act -/

theorem conversing_start : Conversing l.history ⟨[], [], l⟩ := by
  refine ⟨?_, ⟨fun _ h => absurd h List.not_mem_nil, .nil⟩, fun _ h => absurd h List.not_mem_nil⟩
  have begun : Awaits l.history [] (l.history ++ conversation []) := .nothing []
  simpa [conversation] using begun

theorem act_conversing (h : Conversing start p) (act : Act env mode p q) : Conversing start q := by
  have quiet {owed : List Call} {l : Ledger} (e : Event) :
      ∀ r ∈ requestsOf [Entry.event e], owed = [] ∧ r.history = l.history :=
    fun r hr => absurd hr List.not_mem_nil
  cases act with
  | answer hask hadmitted hu =>
    -- The only act with requests, and no call is open before it.
    refine h.extend (fun r hr => ⟨rfl, ?_⟩) (committed_extends _ _ _) (h.awaits.committed _ _)
    rw [hu.requests_eq r hr]
    rfl
  | dispatch hv =>
    obtain ⟨result, hhistory⟩ := hv.history_eq
    refine h.extend (fun r hr => ?_) ?_ ?_
    · rw [requestsOf_ofCall hv.ofCall] at hr
      exact absurd hr List.not_mem_nil
    · exact hhistory ▸ List.prefix_append _ _
    · exact hhistory ▸ h.awaits.answered result
  | say block _ => exact h.extend (quiet _) (List.prefix_append _ _) (h.awaits.said _)
  | mark label => exact h.extend (quiet _) List.prefix_rfl h.awaits
  | giveUp taskId _ => exact h.extend (quiet _) List.prefix_rfl h.awaits
  | cancel _ => exact h.extend (quiet _) List.prefix_rfl h.awaits

theorem acts_conversing (h : Conversing start p) (acts : Relation.ReflTransGen (Act env mode) p q) :
    Conversing start q := by
  induction acts with
  | refl => exact h
  | tail _ act ih => exact act_conversing ih act

/-- A run that breaks off sent no other requests than one that goes on. -/
theorem break_wellAsked {halt : Halt} (h : Conversing start p) (hb : Break env mode p halt t l) :
    WellAsked start (requestsOf t) := by
  cases hb with
  | model hask hadmitted hu hh =>
    refine h.asks fun r hr => ⟨rfl, ?_⟩
    rw [hu.requests_eq r hr]
    rfl
  | call hv hh =>
    refine h.asks fun r hr => ?_
    rw [requestsOf_ofCall hv.ofCall] at hr
    exact absurd hr List.not_mem_nil
  | cut => exact h.asked
  | gone hv => exact h.asks hv

theorem came_wellAsked {r : Except Halt Unit} (h : Conversing start p)
    (came : Came env mode p r t l) : WellAsked start (requestsOf t) := by
  cases came with
  | through acts _ => exact (acts_conversing h acts).asked
  | broke acts hb => exact break_wellAsked (acts_conversing h acts) hb

theorem Closed.requests_eq {a : Assembly} {es : List Event} {s : State}
    (h : Closed env t l a es s) : s.requests = requestsOf t := by
  cases h with
  | all texts h hm => rw [← State.requestsOf_trail, h.trail]; simp
  | part texts hdone h hgone => rw [← State.requestsOf_trail, h.trail]; simp

/-- Every request of a run has the conversation before the run, the message of the user and then
exchanges in which each call has its result, and it continues the conversation of every request
before it. -/
theorem requests_are_conversations (engine : Engine) (turn : UserTurn) (world : World)
    (fuel : Nat) :
    let rs := (engine.run turn world fuel).final.requests
    (∀ r ∈ rs, ∃ xs : List Exchange,
      r.history = turn.history ++ .user turn.message :: xs.flatMap Exchange.messages) ∧
    rs.Pairwise fun a b => a.history <+: b.history := by
  intro rs
  obtain ⟨t, l, a, h⟩ := ran engine turn world fuel
  have asked := came_wellAsked conversing_start h.came
  have hrs : rs = requestsOf t := h.closed.requests_eq
  rw [hrs]
  refine ⟨fun r hr => ?_, asked.ordered⟩
  obtain ⟨xs, hxs⟩ := asked.settled r hr
  refine ⟨xs, ?_⟩
  rw [hxs]
  simp [startLedger, conversation]

end Run

end AgentRun
