import Mathlib.Data.List.Induction
import AgentRun.Proofs.WholeRun

/-!
# One result for each kept call

The calls that a run keeps of the answers of its model are taken up in order, and each is answered
with one result before the next is taken up. So the results that are shown are those of the first
kept calls, and of all of them when the stages end well; a call that is dropped is never taken up,
and nothing in the records, the conversation, the budget or the invocations comes from it.
-/

namespace AgentRun

namespace Message

/-- The call that a message gives the result of. -/
def answeredId? : Message → Option String
  | .tool m => some m.callId
  | _ => none

/-- The calls that a message asks for. -/
def askedIds : Message → List String
  | .assistant m => m.toolCalls.map ToolCallBlock.id
  | _ => []

end Message

namespace Run

/-- The calls whose results are in a conversation. -/
def answeredIds (ms : List Message) : List String := ms.filterMap Message.answeredId?

/-- The calls that are asked for in a conversation. -/
def askedIds (ms : List Message) : List String := ms.flatMap Message.askedIds

section Conversation

variable {ms ns : List Message} {texts : List String}

@[simp] theorem answeredIds_append : answeredIds (ms ++ ns) = answeredIds ms ++ answeredIds ns :=
  List.filterMap_append

@[simp] theorem askedIds_append : askedIds (ms ++ ns) = askedIds ms ++ askedIds ns :=
  List.flatMap_append

@[simp] theorem answeredIds_texts :
    answeredIds (texts.map fun text => .assistant (.ofText text)) = [] := by
  simp [answeredIds, Message.answeredId?]

@[simp] theorem askedIds_texts :
    askedIds (texts.map fun text => .assistant (.ofText text)) = [] := by
  simp [askedIds, Message.askedIds, AssistantMessage.ofText]

/-- A turn asks for the calls that are kept of it and answers nothing, also when it is silent. -/
theorem committed_eq (history : List Message) (turn : Turn) (calls : List Call) :
    ∃ new, committed history turn calls = history ++ new ∧ answeredIds new = [] ∧
      askedIds new = calls.map Call.id := by
  unfold committed
  by_cases hsilent : ({ turn with calls := calls } : Turn).isSilent = true
  · refine ⟨[], by simp [hsilent], rfl, ?_⟩
    have none : calls = [] := by
      simp only [Turn.isSilent, Bool.and_eq_true, List.isEmpty_iff] at hsilent
      exact hsilent.2
    simp [none, askedIds]
  · refine ⟨[.assistant { turn with calls := calls }.message], by simp [hsilent], rfl, ?_⟩
    simp [askedIds, Message.askedIds, Turn.message, Function.comp_def]

end Conversation

/-! ## Places in the budget -/

/-- How many places of a limit calls take. -/
def places (limit : Scope) (calls : List Call) : Nat :=
  if limit.maxCalls = 0 then calls.countP takesSlot
  else min (calls.countP takesSlot) limit.maxCalls

theorem charge_budget (sp : Spending) (c : Call) : (charge sp c).budget = sp.budget := by
  unfold charge
  split <;> rfl

theorem charge_toolCalls {sp : Spending} {calls : List Call} (c : Call)
    (h : sp.toolCalls = places sp.budget.tool calls) :
    (charge sp c).toolCalls = places sp.budget.tool (calls ++ [c]) := by
  unfold places at h ⊢
  unfold charge
  rw [List.countP_append, List.countP_singleton]
  cases htakes : takesSlot c with
  | false => simpa using h
  | true =>
    cases hspent : sp.budget.tool.isSpent sp.toolCalls with
    | false =>
      simp only [Scope.isSpent, Bool.and_eq_false_iff, bne_eq_false_iff_eq, decide_eq_false_iff_not]
        at hspent
      simp only [Bool.not_false, Bool.and_true, if_true]
      split at h <;> split <;> omega
    | true =>
      simp only [Scope.isSpent, Bool.and_eq_true, bne_iff_ne, decide_eq_true_iff] at hspent
      simp only [Bool.not_true, Bool.and_false, Bool.false_eq_true, if_false, if_true]
      split at h <;> split <;> omega

/-! ## What an entry goes back to -/

/-- An entry goes back to what came before it: a result to a piece of its call, and an invocation to
the call that was taken up last. -/
def Entry.Backed (before : List Entry) : Entry → Prop
  | .event (.toolResult callId _) => ∃ e ∈ eventsOf before, e.pieceId? = some callId
  | .invocation i => ∃ c, (dispatched before).getLast? = some c ∧ c.id = i.context.callId
  | _ => True

/-- Every entry goes back to what came before it. -/
def AllBacked (j : List Entry) : Prop :=
  ∀ before e after, j = before ++ e :: after → e.Backed before

namespace AllBacked

variable {t u : List Entry} {e : Entry}

theorem nil : AllBacked [] := throughout_nil

theorem snoc (h : AllBacked t) (he : e.Backed t) : AllBacked (t ++ [e]) :=
  Throughout.snoc (P := fun before e => e.Backed before) h he

/-- Entries that go back to the trail and to those of them that came before. -/
theorem append (h : AllBacked t) (hu : ∀ v f, v ++ [f] <+: u → f.Backed (t ++ v)) :
    AllBacked (t ++ u) := by
  induction u using List.reverseRecOn with
  | nil => simpa using h
  | append_singleton u f ih =>
    rw [← List.append_assoc]
    refine (ih fun v g hv => hu v g (hv.trans (List.prefix_append u [f]))).snoc ?_
    exact hu u f List.prefix_rfl

end AllBacked

/-- A model call leaves nothing that has to go back to anything. -/
theorem BrokenTrail.backed {request : ModelRequest} {u : List Entry} (h : BrokenTrail request u) :
    ∀ e ∈ u, ∀ before, e.Backed before := by
  cases h with
  | broken htries hes =>
    intro e he before
    rcases List.mem_append.mp he with he | he
    · rcases List.mem_cons.mp he with rfl | he
      · trivial
      · obtain ⟨_, rfl⟩ := htries e he
        trivial
    · obtain ⟨f, hf, rfl⟩ := List.mem_map.mp he
      have piece := hes f hf
      cases f with
      | toolResult => cases piece
      | _ => trivial

/-- What serves a call goes back to it. -/
theorem AllBacked.serve {t u : List Entry} {call : Call} (h : AllBacked t)
    (hu : ∀ e ∈ u, e.Serves call) : AllBacked (t ++ .dispatch call :: u) := by
  have taken : AllBacked (t ++ [.dispatch call]) := h.snoc trivial
  rw [List.append_cons]
  refine taken.append fun v f hv => ?_
  have serves : f.Serves call := hu f (hv.subset (by simp))
  cases f with
  | invocation i =>
    have quiet : dispatched v = [] := dispatched_quiet fun e he =>
      (hu e (hv.subset (List.mem_append_left _ he))).quiet
    have last : dispatched (t ++ [.dispatch call] ++ v) = dispatched t ++ [call] := by
      rw [dispatched_append, dispatched_append, quiet, List.append_nil]
      rfl
    exact ⟨call, by rw [last, List.getLast?_concat], serves.symm⟩
  | event e =>
    cases e with
    | toolResult => exact serves.elim
    | _ => trivial
  | _ => trivial

/-! ## The tally of a run -/

/-- What the calls of a run left on a trail and in a ledger when those that are paid for have their
results. -/
structure Tally (mode : AgentMode) (l₀ : Ledger) (paid : List Call) (t : List Entry) (l : Ledger) :
    Prop where
  first : paid <+: dispatched t
  taken : dispatched t <+: keptCalls mode t
  results : resultIds t = paid.map Call.id
  records : l.records.map ToolRecord.callId =
    l₀.records.map ToolRecord.callId ++ paid.map Call.id
  history : ∃ new, l.history = l₀.history ++ new ∧ answeredIds new = paid.map Call.id ∧
    askedIds new = (keptCalls mode t).map Call.id
  budget : l.spending.budget = l₀.spending.budget
  slots : l.spending.toolCalls = places l₀.spending.budget.tool (dispatched t)
  backed : AllBacked t

/-- At a point between two acts all calls that were taken up are paid for, the other kept ones are
owed, and each of them was shown. -/
structure Balanced (mode : AgentMode) (l₀ : Ledger) (p : Point) : Prop where
  tally : Tally mode l₀ (dispatched p.trail) p.trail p.ledger
  owed : keptCalls mode p.trail = dispatched p.trail ++ p.owed
  shown : ∀ c ∈ p.owed, ∃ e ∈ eventsOf p.trail, e.pieceId? = some c.id

variable {env : Env} {mode : AgentMode} {l₀ l l' : Ledger} {paid : List Call} {t u : List Entry}
  {p q : Point}

/-- Entries that have nothing to do with calls, and texts of the engine's own. -/
theorem Tally.extend (h : Tally mode l₀ paid t l) (texts : List String)
    (hkept : keptCalls mode u = []) (htaken : dispatched u = []) (hresults : resultIds u = [])
    (hbacked : AllBacked (t ++ u)) (hrecords : l'.records = l.records)
    (hhistory : l'.history = (l.said texts).history)
    (hbudget : l'.spending.budget = l.spending.budget)
    (hslots : l'.spending.toolCalls = l.spending.toolCalls) : Tally mode l₀ paid (t ++ u) l' where
  first := by simpa [htaken] using h.first
  taken := by simpa [htaken, hkept] using h.taken
  results := by simpa [hresults] using h.results
  records := hrecords ▸ h.records
  history := by
    obtain ⟨new, hnew, hanswered, hasked⟩ := h.history
    refine ⟨new ++ texts.map fun text => .assistant (.ofText text), ?_, ?_, ?_⟩
    · simp [hhistory, Ledger.said, hnew]
    · simpa using hanswered
    · simpa [hkept] using hasked
  budget := hbudget.trans h.budget
  slots := by simpa [htaken] using hslots.trans h.slots
  backed := hbacked

/-- An event of the engine's own that is no result. -/
theorem Balanced.own (h : Balanced mode l₀ ⟨[], t, l⟩) (texts : List String) {e : Event}
    (he : e.resultId? = none) (hrecords : l'.records = l.records)
    (hhistory : l'.history = (l.said texts).history) (hspending : l'.spending = l.spending) :
    Balanced mode l₀ ⟨[], t ++ [.event e], l'⟩ := by
  have kept : keptCalls mode [.event e] = [] := rfl
  have taken : dispatched [.event e] = [] := rfl
  have quiet : resultIds [.event e] = [] := by simp [resultIds, eventsOf, Entry.event?, he]
  have backed : (Entry.event e).Backed t := by
    cases e with
    | toolResult => cases he
    | _ => trivial
  have tally := h.tally.extend texts kept taken quiet (h.tally.backed.snoc backed) hrecords hhistory
    (by rw [hspending]) (by rw [hspending])
  refine ⟨?_, ?_, fun c hc => absurd hc List.not_mem_nil⟩
  · simpa [taken] using tally
  · simpa [kept, taken] using h.owed

theorem Poses.keep_subset {ask : Ask} {keep : List Call → List Call} (h : Poses env mode ask keep)
    (calls : List Call) : keep calls ⊆ calls := by
  cases h with
  | plan => exact fun _ h => h
  | task => exact fun _ h => h
  | _ => exact List.take_subset _ _

/-- An answer is paid for when nothing is owed before it, and what is kept of its calls is owed. -/
theorem Balanced.answer {ask : Ask} {keep : List Call → List Call} {turn : Turn}
    {spending : Spending} (h : Balanced mode l₀ ⟨[], t, l⟩) (hask : Poses env mode ask keep)
    (hadmitted : l.spending.admitModel = .ok spending)
    (hu : AnswerTrail env.supply (requestFor env l.history ask) u turn) :
    Balanced mode l₀ ⟨keep turn.calls, t ++ u, { l with
      spending := spending
      history := committed l.history turn (keep turn.calls) }⟩ := by
  obtain ⟨v, rfl, hv, hshown⟩ := hu.eq_append
  obtain ⟨-, rfl⟩ := admitModel_eq hadmitted
  obtain ⟨new, hnew, hanswered, hasked⟩ := committed_eq l.history turn (keep turn.calls)
  have kept : keptCalls mode (v ++ [.answer (requestFor env l.history ask) turn]) =
      keep turn.calls := by
    rw [keptCalls_append, keptCalls_quiet hv.quiet, ← hask.keptOf_eq l.history turn]
    simp [keptCalls, Entry.kept]
  have taken : dispatched (v ++ [.answer (requestFor env l.history ask) turn]) = [] := by
    rw [dispatched_append, dispatched_quiet hv.quiet]
    rfl
  have results : resultIds (v ++ [.answer (requestFor env l.history ask) turn]) = [] := by
    rw [resultIds_append, resultIds_quiet hv.quiet]
    rfl
  have backed : AllBacked (t ++ (v ++ [.answer (requestFor env l.history ask) turn])) := by
    rw [← List.append_assoc]
    exact (h.tally.backed.append fun w f hw => hv.backed f (hw.subset (by simp)) _).snoc trivial
  have paid : keptCalls mode t = dispatched t := by simpa using h.owed
  refine ⟨⟨?_, ?_, ?_, ?_, ?_, ?_, ?_, backed⟩, ?_, fun c hc => ?_⟩
  · exact List.prefix_rfl
  · simp [kept, taken, paid]
  · simpa [results, taken] using h.tally.results
  · simpa [taken] using h.tally.records
  · obtain ⟨old, hold, holdAnswered, holdAsked⟩ := h.tally.history
    refine ⟨old ++ new, ?_, ?_, ?_⟩
    · rw [hnew, hold, List.append_assoc]
    · simpa [hanswered, taken] using holdAnswered
    · simp [hasked, kept, holdAsked]
  · exact h.tally.budget
  · simpa [taken] using h.tally.slots
  · simp [kept, taken, paid]
  · obtain ⟨e, he, hec⟩ := hshown c (hask.keep_subset _ hc)
    refine ⟨e, ?_, hec⟩
    rw [eventsOf_append, eventsOf_append]
    exact List.mem_append_right _ (List.mem_append_left _ he)

theorem serving_reads (mode : AgentMode) {call : Call} (hu : ∀ e ∈ u, e.Serves call) :
    keptCalls mode (.dispatch call :: u) = [] ∧ dispatched (.dispatch call :: u) = [call] ∧
      resultIds (.dispatch call :: u) = [] := by
  have quiet : ∀ e ∈ u, e.isQuiet = true := fun e he => (hu e he).quiet
  exact ⟨(keptCalls_quiet quiet : keptCalls mode u = []),
    congrArg (call :: ·) (dispatched_quiet quiet), (resultIds_quiet quiet : resultIds u = [])⟩

/-- Entries that serve a call that is taken up add the call, and no result. -/
theorem Tally.serve {call : Call} {rest : List Call} (h : Tally mode l₀ paid t l)
    (howed : keptCalls mode t = dispatched t ++ call :: rest)
    (hu : ∀ e ∈ u, e.Serves call) :
    Tally mode l₀ paid (t ++ .dispatch call :: u)
      { l with spending := charge l.spending call } := by
  obtain ⟨kept, taken, results⟩ := serving_reads mode hu
  refine ⟨?_, ?_, ?_, h.records, ?_, ?_, ?_, h.backed.serve hu⟩
  · rw [dispatched_append, taken]
    exact h.first.trans (List.prefix_append _ _)
  · rw [dispatched_append, taken, keptCalls_append, kept, List.append_nil, howed]
    exact (List.prefix_append_right_inj _).mpr ⟨rest, rfl⟩
  · simpa [results] using h.results
  · simpa [kept] using h.history
  · exact (charge_budget _ _).trans h.budget
  · rw [dispatched_append, taken, ← h.budget]
    exact charge_toolCalls call (h.budget ▸ h.slots)

theorem Shows.reads (mode : AgentMode) {plan plan' : Plan} {shown : List Entry}
    (h : Shows plan plan' shown) :
    keptCalls mode shown = [] ∧ dispatched shown = [] ∧ resultIds shown = [] := by
  cases h with
  | same => exact ⟨rfl, rfl, rfl⟩
  | changed => exact ⟨rfl, rfl, rfl⟩

theorem Shows.backed {plan plan' : Plan} {shown : List Entry} (h : Shows plan plan' shown)
    (ht : AllBacked t) : AllBacked (t ++ shown) := by
  cases h with
  | same => simpa using ht
  | changed => exact ht.snoc trivial

/-- What an answered call leaves: it is taken up and it has one result. -/
theorem Answered.reads (mode : AgentMode) {call : Call} {v : List Entry}
    (h : Answered call l v l') :
    keptCalls mode v = [] ∧ dispatched v = [call] ∧ resultIds v = [call.id] := by
  cases h with
  | answered args result hu hshown =>
    obtain ⟨kept, taken, results⟩ := serving_reads mode hu
    obtain ⟨kept', taken', results'⟩ := hshown.reads mode
    rw [List.append_cons, keptCalls_append, keptCalls_append, dispatched_append, dispatched_append,
      resultIds_append, resultIds_append, kept, taken, results, kept', taken', results']
    exact ⟨rfl, rfl, rfl⟩

/-- The next call that is owed is answered, and so paid for. -/
theorem Tally.pay {call : Call} {rest : List Call} {v : List Entry}
    (h : Tally mode l₀ (dispatched t) t l) (howed : keptCalls mode t = dispatched t ++ call :: rest)
    (hshown : ∃ e ∈ eventsOf t, e.pieceId? = some call.id) (hv : Answered call l v l') :
    Tally mode l₀ (dispatched t ++ [call]) (t ++ v) l' := by
  obtain ⟨kept, taken, results⟩ := hv.reads mode
  have keptNow : keptCalls mode (t ++ v) = dispatched t ++ call :: rest := by
    rw [keptCalls_append, kept, List.append_nil, howed]
  have takenNow : dispatched (t ++ v) = dispatched t ++ [call] := by rw [dispatched_append, taken]
  cases hv with
  | @answered u shown plan args result hu hplan =>
    have served := h.serve howed hu
    -- The call is owed, so a piece of it was shown before it was taken up.
    have piece : (Entry.event (.toolResult call.id result)).Backed (t ++ .dispatch call :: u) := by
      obtain ⟨e, he, hec⟩ := hshown
      exact ⟨e, by rw [eventsOf_append]; exact List.mem_append_left _ he, hec⟩
    refine ⟨takenNow ▸ List.prefix_rfl, ?_, ?_, ?_, ?_, served.budget, ?_, ?_⟩
    · rw [takenNow, keptNow]
      exact (List.prefix_append_right_inj _).mpr ⟨rest, rfl⟩
    · rw [resultIds_append, results, h.results, List.map_append]
      rfl
    · simp [Ledger.answered, h.records]
    · obtain ⟨new, hnew, hanswered, hasked⟩ := h.history
      refine ⟨new ++ [.tool ⟨call.id, call.name, result⟩], ?_, ?_, ?_⟩
      · simp [Ledger.answered, hnew]
      · rw [answeredIds_append, hanswered, List.map_append]
        rfl
      · rw [keptNow, ← howed, askedIds_append, hasked]
        exact List.append_nil _
    · have slots := served.slots
      rw [dispatched_append, (serving_reads mode hu).2.1] at slots
      rw [takenNow]
      exact slots
    · rw [List.append_cons _ _ shown, ← List.append_assoc, ← List.append_assoc]
      exact hplan.backed (served.backed.snoc piece)

theorem Balanced.dispatch {call : Call} {rest : List Call} {v : List Entry}
    (h : Balanced mode l₀ ⟨call :: rest, t, l⟩) (hv : Answered call l v l') :
    Balanced mode l₀ ⟨rest, t ++ v, l'⟩ := by
  obtain ⟨kept, taken, -⟩ := hv.reads mode
  have howed : keptCalls mode t = dispatched t ++ call :: rest := h.owed
  refine ⟨?_, ?_, fun c hc => ?_⟩
  · simpa [taken] using h.tally.pay howed (h.shown call (List.mem_cons_self ..)) hv
  · simp [kept, taken, howed]
  · obtain ⟨e, he, hec⟩ := h.shown c (List.mem_cons_of_mem _ hc)
    exact ⟨e, by rw [eventsOf_append]; exact List.mem_append_left _ he, hec⟩

/-! ## From act to act -/

theorem balanced_start (hrecords : l₀.records = []) (hspent : l₀.spending.toolCalls = 0) :
    Balanced mode l₀ ⟨[], [], l₀⟩ := by
  refine ⟨⟨List.prefix_rfl, List.prefix_rfl, rfl, ?_, ⟨[], ?_, rfl, rfl⟩, rfl, ?_, .nil⟩, rfl,
    fun c hc => absurd hc List.not_mem_nil⟩
  · simp [hrecords, dispatched]
  · simp
  · simp [hspent, places, dispatched]

/-- Every act keeps the balance. -/
theorem act_balanced (h : Balanced mode l₀ p) (act : Act env mode p q) : Balanced mode l₀ q := by
  cases act with
  | answer hask hadmitted hu => exact h.answer hask hadmitted hu
  | dispatch hv => exact h.dispatch hv
  | say block _ => exact h.own [budgetExhaustedMessage] rfl rfl rfl rfl
  | mark label => exact h.own [] rfl rfl (by simp) rfl
  | giveUp taskId _ => exact h.own [] rfl rfl (by simp) rfl
  | cancel _ => exact h.own [] rfl rfl (by simp) rfl

theorem acts_balanced (h : Balanced mode l₀ p) (acts : Relation.ReflTransGen (Act env mode) p q) :
    Balanced mode l₀ q := by
  induction acts with
  | refl => exact h
  | tail _ act ih => exact act_balanced ih act

/-- What a run leaves whose client was there, with the calls that have their results: all of the
kept ones if its stages ended well. -/
theorem came_tally {r : Except Halt Unit} (h : Balanced mode l₀ p) (came : Came env mode p r t l)
    (hthere : r ≠ .error (.failed .consumerGone)) :
    ∃ paid, Tally mode l₀ paid t l ∧ (r = .ok () → paid = keptCalls mode t) := by
  cases came with
  | through acts _ =>
    have hq := acts_balanced h acts
    exact ⟨_, hq.tally, fun _ => by simpa using hq.owed.symm⟩
  | @broke q _ _ _ acts hb =>
    have hq := acts_balanced h acts
    refine ⟨dispatched q.trail, ?_, fun h => by cases h⟩
    cases hb with
    | model hask hadmitted hu hh =>
      obtain ⟨-, rfl⟩ := admitModel_eq hadmitted
      exact hq.tally.extend [] (keptCalls_quiet hu.quiet) (dispatched_quiet hu.quiet)
        (resultIds_quiet hu.quiet)
        (hq.tally.backed.append fun w f hw => hu.backed f (hw.subset (by simp)) _) rfl (by simp)
        rfl rfl
    | call hv hh =>
      -- The call was taken up, but it is not paid for.
      cases hv with
      | unanswered hu => exact hq.tally.serve hq.owed hu
    | cut => exact hq.tally
    | gone hv => exact absurd rfl hthere

/-! ## From the trail to what the client sees -/

theorem eventsOf_split {j : List Entry} {before after : List Event} {e : Event}
    (h : eventsOf j = before ++ e :: after) :
    ∃ i k, j = i ++ .event e :: k ∧ eventsOf i = before := by
  obtain ⟨i, k, rfl, hi, hk⟩ := List.filterMap_eq_append_iff.mp h
  obtain ⟨skipped, f, k, rfl, hskipped, hf, -⟩ := List.filterMap_eq_cons_iff.mp hk
  have hev : f = .event e := by
    cases f with
    | event g => exact congrArg Entry.event (Option.some.inj hf)
    | _ => cases hf
  refine ⟨i ++ skipped, k, by simp [hev], ?_⟩
  rw [eventsOf_append, show eventsOf i = before from hi,
    show eventsOf skipped = [] from List.filterMap_eq_nil_iff.mpr hskipped, List.append_nil]

/-- A result in the events comes behind a piece of its call. -/
theorem AllBacked.result_after_piece (h : AllBacked t) {before after : List Event} {callId : String}
    {result : Json} (hsplit : eventsOf t = before ++ .toolResult callId result :: after) :
    ∃ e ∈ before, e.pieceId? = some callId := by
  obtain ⟨i, k, rfl, rfl⟩ := eventsOf_split hsplit
  exact h i _ k rfl

/-- An invocation in the journal comes from the call that was taken up last. -/
theorem AllBacked.invocation_of_taken {s : State} (h : AllBacked s.trail)
    {before after : List Entry} {i : Invocation}
    (hsplit : s.journal = before ++ .invocation i :: after) :
    ∃ c, (dispatched before).getLast? = some c ∧ c.id = i.context.callId := by
  have htrail : s.trail = before.filter (fun e => !e.isSubmission) ++
      .invocation i :: after.filter (fun e => !e.isSubmission) := by
    simp [State.trail, hsplit, Entry.isSubmission]
  have htaken : dispatched (before.filter fun e => !e.isSubmission) = dispatched before :=
    State.dispatched_trail (s := { s with journal := before })
  rw [← htaken]
  exact h _ _ _ htrail

theorem endingOf_quiet (block : String) (r : Except Halt Unit) :
    ∀ e ∈ (endingOf block r).map Entry.event, e.isQuiet = true ∧ ∀ before, e.Backed before := by
  intro e he
  obtain ⟨f, hf, rfl⟩ := List.mem_map.mp he
  rcases mem_endingOf hf with ⟨_, rfl⟩ | ⟨_, rfl⟩
  · exact ⟨rfl, fun _ => trivial⟩
  · exact ⟨rfl, fun _ => trivial⟩

/-- The end of a run adds nothing to the tally. -/
theorem Tally.ending (h : Tally mode l₀ paid t l) (texts : List String) (block : String)
    (r : Except Halt Unit) :
    Tally mode l₀ paid (t ++ (endingOf block r).map .event) (l.said texts) := by
  have quiet : ∀ e ∈ (endingOf block r).map Entry.event, e.isQuiet = true :=
    fun e he => (endingOf_quiet block r e he).1
  have backed := h.backed.append fun v f hv =>
    (endingOf_quiet block r f (hv.subset (by simp))).2 _
  exact h.extend texts (keptCalls_quiet quiet) (dispatched_quiet quiet) (resultIds_quiet quiet)
    backed rfl rfl rfl rfl

/-- How the results of a run of a turn match the calls that it kept of the answers of its model. -/
structure Matched (turn : UserTurn) (o : Outcome) : Prop where
  /-- The results are those of the first kept calls, in order. -/
  results : o.delivered.filterMap Event.resultId? <+:
    (keptCalls turn.agent.mode o.final.journal).map Call.id
  /-- When the stages end well, they are those of all kept calls. -/
  complete : o.stages = .ok () → o.delivered.filterMap Event.resultId? =
    (keptCalls turn.agent.mode o.final.journal).map Call.id
  /-- A piece of its call comes before each result. -/
  shown : ∀ before callId result after, o.delivered = before ++ .toolResult callId result :: after →
    ∃ e ∈ before, e.pieceId? = some callId
  /-- Only kept calls are taken up, in order. -/
  taken : dispatched o.final.journal <+: keptCalls turn.agent.mode o.final.journal
  /-- The records are those of the calls with results. -/
  records : o.final.records.map ToolRecord.callId = o.delivered.filterMap Event.resultId?
  /-- The conversation asks for the kept calls and holds the results, and no others. -/
  history : ∃ new, o.final.history = turn.history ++ .user turn.message :: new ∧
    answeredIds new = o.delivered.filterMap Event.resultId? ∧
    askedIds new = (keptCalls turn.agent.mode o.final.journal).map Call.id
  /-- The places in the budget are taken by the calls that were taken up. -/
  slots : o.final.spending.toolCalls =
    places turn.agent.runSpec.budget.tool (dispatched o.final.journal)
  /-- An invocation comes from the call that was taken up last. -/
  invoked : ∀ before i after, o.final.journal = before ++ .invocation i :: after →
    ∃ c, (dispatched before).getLast? = some c ∧ c.id = i.context.callId

/-- Whatever the model, the tools and the client do: a client that keeps reading gets one result for
each kept call, in order, as far as the run comes, and dropped calls leave nothing. -/
theorem kept_calls_have_results (engine : Engine) (turn : UserTurn) (world : World) (fuel : Nat)
    (hreads : turn.client.KeepsReading) : Matched turn (engine.run turn world fuel) := by
  obtain ⟨t, l, a, h⟩ := ran engine turn world fuel
  obtain ⟨paid, tally, hall⟩ := came_tally (balanced_start rfl rfl) h.came (h.read hreads)
  obtain ⟨texts, minted, hended, -⟩ := h.final_ended hreads
  have final := tally.ending texts (IdKind.block.mint engine.supply a.minted)
    (engine.run turn world fuel).stages
  rw [← hended.trail, ← hended.ledger] at final
  have hevents : (engine.run turn world fuel).delivered =
      (engine.run turn world fuel).final.events := delivered_eq_events hreads
  have hresults : (engine.run turn world fuel).delivered.filterMap Event.resultId? =
      paid.map Call.id := by
    rw [hevents, ← State.eventsOf_trail]
    exact final.results
  have htaken := final.taken
  rw [State.keptCalls_trail, State.dispatched_trail] at htaken
  have hfirst := final.first
  rw [State.dispatched_trail] at hfirst
  obtain ⟨new, hnew, hanswered, hasked⟩ := final.history
  refine ⟨?_, fun hok => ?_, fun before callId result after hsplit => ?_, htaken, ?_, ?_, ?_,
    fun before i after hsplit => final.backed.invocation_of_taken hsplit⟩
  · rw [hresults]
    exact (hfirst.trans htaken).map _
  · rw [hresults, hall hok, ← State.keptCalls_trail, hended.trail, keptCalls_append,
      keptCalls_map_event, List.append_nil]
  · rw [hevents, ← State.eventsOf_trail] at hsplit
    exact final.backed.result_after_piece hsplit
  · rw [hresults]
    exact final.records
  · refine ⟨new, ?_, hresults ▸ hanswered, State.keptCalls_trail ▸ hasked⟩
    rw [show (engine.run turn world fuel).final.history = _ from hnew]
    simp [startLedger]
  · rw [← State.dispatched_trail]
    exact final.slots

/-- An answer with two calls, and a final answer. -/
def twoCalls : List Reply :=
  [Script.ofChunks (Script.calls [("c1", "echo", .empty), ("c2", "echo", .empty)]) .done,
    Script.ofChunks (Script.texts ["Done."]) .done]

/-- A oneshot run keeps one call of two, and only that call has a result. -/
theorem first_of_two_calls_has_result :
    ((rehearsal twoCalls).run (firstTurn .oneshot) (.new 1) 0).delivered.filterMap
      Event.resultId? = ["c1"] := by
  have matched := kept_calls_have_results (rehearsal twoCalls) (firstTurn .oneshot) (.new 1) 0
    Client.reader_keepsReading
  rw [matched.complete (by decide +kernel)]
  decide +kernel

end Run

end AgentRun
