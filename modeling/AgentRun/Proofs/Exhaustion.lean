import AgentRun.Proofs.Effort
import AgentRun.Proofs.Ending

/-!
# Running out of model calls

A run whose model calls are used up before its final answer says so itself. What the engine says is
told from what the model says by where it stands: texts of the model come between a model call and
its answer (`ownTexts`). A run that does not have to apologise for its lack of calls ends with the
model: with a decision that calls nothing or with the final answer.
-/

namespace AgentRun.Run

/-! ## What the engine says -/

namespace Entry

/-- Whether an answer is being put together after an entry, if it was before or not. -/
def opens (before : Bool) : Entry → Bool
  | .modelCall _ _ => true
  | .answer _ _ => false
  | _ => before

/-- The text of an entry that sends one. -/
def sentText? : Entry → Option String
  | .event (.content _ text) => some text
  | _ => none

/-- The answer that an entry puts together, with its request. -/
def answer? : Entry → Option (ModelRequest × Turn)
  | .answer request turn => some (request, turn)
  | _ => none

end Entry

/-- Whether an answer is being put together after some entries. -/
def answering (before : Bool) (j : List Entry) : Bool := j.foldl Entry.opens before

/-- The texts that are sent while no answer is put together. -/
def ownTexts : Bool → List Entry → List String
  | _, [] => []
  | before, e :: j =>
    (if before then [] else e.sentText?.toList) ++ ownTexts (e.opens before) j

/-- The answers of a journal with their requests. -/
def answersOf (j : List Entry) : List (ModelRequest × Turn) := j.filterMap Entry.answer?

section Texts

variable {before : Bool} {i j u v : List Entry} {e : Entry}

theorem answering_append : answering before (i ++ j) = answering (answering before i) j :=
  List.foldl_append

theorem ownTexts_append :
    ownTexts before (i ++ j) = ownTexts before i ++ ownTexts (answering before i) j := by
  induction i generalizing before with
  | nil => rfl
  | cons e i ih =>
    rw [List.cons_append, ownTexts, ownTexts, ih, List.append_assoc]
    rfl

@[simp] theorem answersOf_append : answersOf (i ++ j) = answersOf i ++ answersOf j :=
  List.filterMap_append

/-- Whatever is sent while an answer is put together is not the engine's. -/
theorem ownTexts_answering (h : ∀ e ∈ u, e.answer? = none) :
    ownTexts true u = [] ∧ answering true u = true := by
  induction u with
  | nil => exact ⟨rfl, rfl⟩
  | cons e u ih =>
    have hopens : e.opens true = true := by
      cases e with
      | answer => cases h _ List.mem_cons_self
      | _ => rfl
    have hrest := ih fun f hf => h f (List.mem_cons_of_mem _ hf)
    unfold ownTexts answering
    rw [List.foldl_cons, hopens]
    exact hrest

theorem ownTexts_ofCall (before : Bool) (h : ∀ e ∈ v, e.isOfCall = true) :
    ownTexts before v = [] ∧ answering before v = before := by
  induction v with
  | nil => exact ⟨rfl, rfl⟩
  | cons e v ih =>
    have hopens : e.opens before = before := by
      cases e with
      | modelCall => cases h _ List.mem_cons_self
      | answer => cases h _ List.mem_cons_self
      | _ => rfl
    have htext : e.sentText? = none := by
      cases e with
      | event e =>
        cases e with
        | content => cases h _ List.mem_cons_self
        | _ => rfl
      | _ => rfl
    have hrest := ih fun f hf => h f (List.mem_cons_of_mem _ hf)
    unfold ownTexts answering
    rw [List.foldl_cons, hopens, htext]
    exact ⟨by simpa using hrest.1, hrest.2⟩

theorem answersOf_ofCall (h : ∀ e ∈ v, e.isOfCall = true) : answersOf v = [] :=
  List.filterMap_eq_nil_iff.mpr fun e he => by
    cases e with
    | answer => cases h _ he
    | _ => rfl

theorem unanswered_attempts {request : ModelRequest} {tries : List Entry}
    (h : Attempts request tries) (es : List Event) :
    ∀ e ∈ tries ++ es.map .event, e.answer? = none := by
  intro e he
  rcases List.mem_append.mp he with he | he
  · obtain ⟨time, rfl⟩ := h e he
    rfl
  · obtain ⟨f, -, rfl⟩ := List.mem_map.mp he
    rfl

/-- A model call that is answered is all the model's. -/
theorem AnswerTrail.ownTexts_eq {supply : Supply} {request : ModelRequest} {turn : Turn}
    (h : AnswerTrail supply request u turn) :
    ownTexts false u = [] ∧ answering false u = false ∧ answersOf u = [(request, turn)] := by
  cases h with
  | @answered time minted tries cs htries =>
    have hunanswered := unanswered_attempts htries
      (Assembly.pushAll supply cs (.start minted)).1
    have hnone : answersOf (tries ++
        (Assembly.pushAll supply cs (.start minted)).1.map Entry.event) = [] :=
      List.filterMap_eq_nil_iff.mpr hunanswered
    obtain ⟨htexts, hanswering⟩ := ownTexts_answering hunanswered
    refine ⟨?_, ?_, ?_⟩
    · rw [List.cons_append, List.cons_append, ownTexts, ownTexts_append]
      simp only [Entry.opens, Entry.sentText?, Option.toList_none, List.nil_append,
        Bool.false_eq_true, if_false, htexts, hanswering, ownTexts, if_true]
    · rw [answering_append]
      rfl
    · rw [List.cons_append, answersOf_append]
      exact congrArg (· ++ [_]) hnone

/-- So is one that breaks off. -/
theorem BrokenTrail.ownTexts_eq {request : ModelRequest} (h : BrokenTrail request u) :
    ownTexts false u = [] := by
  cases h with
  | broken htries hes =>
    rw [List.cons_append, ownTexts]
    simpa [Entry.opens, Entry.sentText?] using (ownTexts_answering (unanswered_attempts htries _)).1

end Texts

/-! ## What the stages say -/

/-- The engine has said nothing, and no answer is being put together. -/
structure Silent (s : State) : Prop where
  texts : ownTexts false s.trail = []
  closed : answering false s.trail = false

section Stages

variable {env : Env} {s s' : State} {m : Move} {c next denied : Station} {halt : Halt}
  {text : String} {wanted : Ask} {keep : List Call → List Call} {u v : List Entry}

theorem Silent.append (h : Silent s) (htrail : s'.trail = s.trail ++ u)
    (hu : ownTexts false u = [] ∧ answering false u = false) : Silent s' := by
  refine ⟨?_, ?_⟩
  · rw [htrail, ownTexts_append, h.texts, h.closed, hu.1]
    rfl
  · rw [htrail, answering_append, h.closed, hu.2]

/-- Only what the engine is to say is said by the engine. -/
theorem Silent.moved (h : Silent s) (hm : Moved env s s' m c) (htell : ∀ text d, m ≠ .tell text d) :
    Silent s' := by
  cases hm with
  | go hsame => exact hsame ▸ h
  | denied hspent hsame => exact hsame ▸ h
  | @answered _ _ _ _ spending u v turn hadmitted hbegun hu hv htrail =>
    obtain ⟨htexts, hclosed, -⟩ := hu.ownTexts_eq
    obtain ⟨hvtexts, hvclosed⟩ := ownTexts_ofCall false hv.served.1.ofCall
    rw [List.append_assoc] at htrail
    refine h.append htrail ⟨?_, ?_⟩
    · rw [ownTexts_append, htexts, hclosed, hvtexts]
      rfl
    · rw [answering_append, hclosed, hvclosed]
  | marked htrail hledger => exact h.append htrail ⟨rfl, rfl⟩
  | replanned htrail hledger => exact h.append htrail ⟨rfl, rfl⟩
  | told htrail hledger => exact absurd rfl (htell _ _)

theorem Silent.told (h : Silent s) (hm : Moved env s s' (.tell text next) c) :
    ownTexts false s'.trail = [text] := by
  cases hm with
  | told htrail hledger =>
    rw [htrail, ownTexts_append, h.texts, h.closed]
    rfl

/-- A run that is halted has said nothing. -/
theorem Silent.stopped (h : Silent s) (hs : Stopped env s s' m halt) :
    ownTexts false s'.trail = [] := by
  have unchanged (htrail : s'.trail = s.trail) : ownTexts false s'.trail = [] := htrail ▸ h.texts
  cases hs with
  | halted hsame => exact hsame ▸ h.texts
  | broke hadmitted hbegun hu htrail hledger hhalt =>
    rw [htrail, ownTexts_append, h.texts, h.closed, hu.ownTexts_eq]
    rfl
  | @unanswered _ _ _ _ spending u v turn _ hadmitted hbegun hu hv htrail hhalt =>
    obtain ⟨htexts, hclosed, -⟩ := hu.ownTexts_eq
    obtain ⟨hvtexts, -⟩ := ownTexts_ofCall false hv.served.ofCall
    rw [htrail, List.append_assoc, ownTexts_append, ownTexts_append, h.texts, h.closed, htexts,
      hclosed, hvtexts]
    rfl
  | unmarked htrail hledger hgone => exact unchanged htrail
  | unshown htrail hledger hgone => exact unchanged htrail
  | untold htrail hledger hgone => exact unchanged htrail

end Stages

/-! ## How a run comes to its end -/

/-- The last thing that a run in a mode asks the model for, with the answer: a decision that calls
nothing, or the final answer. -/
inductive LastAsk (env : Env) (mode : AgentMode) (request : ModelRequest) (answer : Turn) : Prop
  | oneshot (hmode : mode = .oneshot) (history : List Message)
      (hrequest : request = requestFor env history (oneshotAsk env)) (hcalls : answer.calls = [])
  | react (hmode : mode = .react) (history : List Message)
      (hrequest : request = requestFor env history (reactAsk env)) (hcalls : answer.calls = [])
  | summary (hdirective : request.directive = some summaryDirective) (htools : request.tools = [])
      (hchoice : request.toolChoice = .none)

/-- The last call of the entries is one that a run ends with. -/
def Concluded (env : Env) (mode : AgentMode) (j : List Entry) : Prop :=
  ∃ time request answer, (callsOf j).getLast? = some (time, request) ∧
    (answersOf j).getLast? = some (request, answer) ∧ LastAsk env mode request answer

/-- What is said until a run comes to a station, and how it comes to its end. -/
def Speaking (engine : Engine) (turn : UserTurn) (world : World) (fuel : Nat) :
    Station → State → Prop
  | .deciding, s => Silent s ∧ turn.agent.mode = .oneshot
  | .steps _, s => Silent s ∧ turn.agent.mode = .react
  | .exhausted, s => Silent s ∧ Visits engine turn world fuel .summarizing s ∧
      s.spending.modelIsSpent = true
  | .done, s => Silent s ∧ Concluded (engine.start turn world).1 turn.agent.mode s.trail ∨
      ownTexts false s.trail = [budgetExhaustedMessage] ∧
        ∃ s₀, Visits engine turn world fuel .summarizing s₀ ∧ s₀.spending.modelIsSpent = true
  | _, s => Silent s

section Speaking

variable {engine : Engine} {turn : UserTurn} {world : World} {fuel rounds : Nat} {env : Env}
  {s s' : State} {m : Move} {c c' denied : Station} {halt : Halt} {wanted : Ask}
  {keep : List Call → List Call} {next : List Call → Station}

theorem Moved.last_answer (h : Moved env s s' (.ask wanted keep next denied) c) :
    s.spending.modelIsSpent = true ∧ s' = s ∧ c = denied ∨ ∃ answer : Turn,
      c = next (keep answer.calls) ∧
      (callsOf s'.trail).getLast? = some (s.now, requestFor env s.history wanted) ∧
      (answersOf s'.trail).getLast? = some (requestFor env s.history wanted, answer) := by
  cases h with
  | denied hspent hsame => exact Or.inl ⟨hspent, hsame, rfl⟩
  | @answered _ _ _ _ spending u v answer hadmitted hbegun hu hv htrail =>
    obtain ⟨-, -, hanswers⟩ := hu.ownTexts_eq
    have hof := hv.served.1.ofCall
    refine Or.inr ⟨answer, rfl, ?_, ?_⟩
    · rw [htrail, callsOf_append, callsOf_append, hbegun.calls, callsOf_ofCall hof, List.append_nil,
        List.getLast?_concat]
    · rw [htrail, answersOf_append, answersOf_append, hanswers, answersOf_ofCall hof,
        List.append_nil, List.getLast?_concat]

theorem Speaking.silent (h : Speaking engine turn world fuel c s) (hc : c ≠ .done) : Silent s := by
  cases c with
  | done => exact absurd rfl hc
  | deciding => exact h.1
  | steps left => exact h.1
  | exhausted => exact h.1
  | _ => exact h

/-- A run that decides on no call is done with that. -/
theorem decided_speaking {answer : Turn}
    (hconcluded : answer.calls = [] → Speaking engine turn world fuel .done s)
    (hgo : Speaking engine turn world fuel c s) :
    Speaking engine turn world fuel (if (answer.calls.take 1).isEmpty then .done else c) s := by
  refine Station.decided (P := fun c => Speaking engine turn world fuel c s) (fun hnone => ?_) hgo
  rcases List.take_eq_nil_iff.mp hnone with hone | hcalls
  · cases hone
  · exact hconcluded hcalls

theorem speaking_step (hvisits : Visits engine turn world fuel c s)
    (hd : Decides (engine.start turn world).1 rounds s c m)
    (h : Speaking engine turn world fuel c s) (hm : Moved (engine.start turn world).1 s s' m c') :
    Speaking engine turn world fuel c' s' := by
  cases hd with
  | decide =>
    have hsilent : Silent s' := h.1.moved hm nofun
    rcases hm.last_answer with ⟨-, -, rfl⟩ | ⟨answer, rfl, hcall, hanswer⟩
    · exact hsilent
    · refine decided_speaking (fun hnone => Or.inl ⟨hsilent, ?_⟩) hsilent
      exact ⟨_, _, _, hcall, hanswer, .oneshot h.2 _ rfl hnone⟩
  | step hearly =>
    have hsilent : Silent s' := h.1.moved hm nofun
    rcases hm.last_answer with ⟨-, -, rfl⟩ | ⟨answer, rfl, hcall, hanswer⟩
    · exact hsilent
    · refine decided_speaking (fun hnone => Or.inl ⟨hsilent, ?_⟩) ⟨hsilent, h.2⟩
      exact ⟨_, _, _, hcall, hanswer, .react h.2 _ rfl hnone⟩
  | summary hunspent =>
    have hsilent : Silent s' := Silent.moved h hm nofun
    rcases hm.last_answer with ⟨hspent, -, -⟩ | ⟨answer, rfl, hcall, hanswer⟩
    · exact absurd hspent (by simp [hunspent])
    · exact Or.inl ⟨hsilent, _, _, _, hcall, hanswer, .summary rfl rfl rfl⟩
  | spent hspent =>
    obtain ⟨rfl, rfl⟩ := hm.go_eq
    exact ⟨h, hvisits, hspent⟩
  | apology =>
    have htexts := h.1.told hm
    obtain ⟨rfl, -, -⟩ := hm.tell_eq
    exact Or.inr ⟨htexts, s, h.2⟩
  | done =>
    obtain ⟨rfl, rfl⟩ := hm.go_eq
    exact h
  | plan | round =>
    have hsilent : Silent s' := Silent.moved h hm nofun
    rcases hm.consulted with ⟨-, -, rfl⟩ | ⟨-, answer, rfl, -⟩
    · exact hsilent
    · exact hsilent
  | begin | execute | close =>
    have hsilent : Silent s' := Silent.moved h hm nofun
    obtain ⟨rfl, -, -⟩ := hm.mark_eq
    exact hsilent
  | giveUp | drop =>
    have hsilent : Silent s' := Silent.moved h hm nofun
    obtain ⟨rfl, -, -⟩ := hm.replan_eq
    exact hsilent
  | noFuel => cases hm
  | _ =>
    obtain ⟨rfl, rfl⟩ := hm.go_eq
    exact h.silent nofun

end Speaking

/-! ## Whole runs -/

/-- What the engine says in a run: in its stages where no answer is put together, and after them. -/
def engineTexts (engine : Engine) (turn : UserTurn) (world : World) (fuel : Nat) : List String :=
  ownTexts false (afterStages engine turn world fuel).trail ++
    ((engine.run turn world fuel).final.events.drop
      (afterStages engine turn world fuel).events.length).filterMap Event.text?

section Whole

variable {engine : Engine} {turn : UserTurn} {world : World} {fuel : Nat} {c : Station} {s : State}

theorem apology?_message {halt : Halt} {message : String} {reason : FinishReason}
    (h : apology? halt = some (message, reason)) :
    message = frontendTimeoutMessage ∨ message = genericFailureMessage := by
  cases halt with
  | failed e =>
    cases e with
    | consumerGone => cases h
    | frontendTimeout tool timeoutMs =>
      cases h
      exact Or.inl rfl
    | _ =>
      cases h
      exact Or.inr rfl
  | panicked message =>
    cases h
    exact Or.inr rfl
  | stuck => cases h
  | cut => cases h

theorem ending_texts {block text : String} {r : Except Halt Unit}
    (h : text ∈ (endingOf block r).filterMap Event.text?) :
    text = frontendTimeoutMessage ∨ text = genericFailureMessage := by
  cases r with
  | ok _ => cases h
  | error halt =>
    unfold endingOf at h
    cases happ : apology? halt with
    | none =>
      simp only [happ] at h
      cases h
    | some words =>
      simp only [happ] at h
      obtain rfl : text = words.1 := List.mem_singleton.mp h
      exact apology?_message happ

/-- What ends the events of a run says nothing about the model calls. -/
theorem exhausted_notMem_ending {block : String} {r : Except Halt Unit} :
    budgetExhaustedMessage ∉ (endingOf block r).filterMap Event.text? := by
  intro h
  rcases ending_texts h with h | h
  · exact absurd h (by decide)
  · exact absurd h (by decide)

theorem engineTexts_eq (engine : Engine) (world : World) (fuel : Nat)
    (hreads : turn.client.KeepsReading) : ∃ block, engineTexts engine turn world fuel =
      ownTexts false (afterStages engine turn world fuel).trail ++
        (endingOf block (engine.run turn world fuel).stages).filterMap Event.text? := by
  obtain ⟨t, l, a, h⟩ := ran engine turn world fuel
  refine ⟨IdKind.block.mint engine.supply a.minted, ?_⟩
  unfold engineTexts
  rw [← delivered_eq_events hreads, h.delivered_eq hreads, List.drop_left]

/-- Whether the engine says that the model calls are used up is settled in the stages. -/
theorem exhausted_mem_engineTexts (hreads : turn.client.KeepsReading) :
    budgetExhaustedMessage ∈ engineTexts engine turn world fuel ↔
      budgetExhaustedMessage ∈ ownTexts false (afterStages engine turn world fuel).trail := by
  obtain ⟨block, htexts⟩ := engineTexts_eq engine world fuel hreads
  rw [htexts, List.mem_append, or_iff_left exhausted_notMem_ending]

theorem Runner.start_speaking (hsilent : Silent s)
    (hmode : (runnerOf engine turn).mode = turn.agent.mode) :
    Speaking engine turn world fuel ((runnerOf engine turn).station fuel) s := by
  cases hrunner : runnerOf engine turn with
  | oneshot => exact ⟨hsilent, (hrunner ▸ hmode).symm⟩
  | react maxSteps => exact ⟨hsilent, (hrunner ▸ hmode).symm⟩
  | planExecute rounds => exact hsilent

theorem Visits.speaking (h : Visits engine turn world fuel c s) :
    Speaking engine turn world fuel c s := by
  have hsilent : Silent (engine.start turn world).2 := by
    refine ⟨?_, ?_⟩
    · rw [start_stands.trail]
      rfl
    · rw [start_stands.trail]
      rfl
  exact (visits_start engine turn world fuel).onwards
    (Runner.start_speaking hsilent (mode_ofAgent _ _))
    (fun c s c' s' hvisits h hm => speaking_step hvisits (decides ..) h hm) h

/-- The stages of a run say nothing, or they say at last that the model calls are used up. -/
theorem stages_speaking (engine : Engine) (turn : UserTurn) (world : World) (fuel : Nat) :
    ownTexts false (afterStages engine turn world fuel).trail = [] ∧
        ((engine.run turn world fuel).stages = .ok () →
          Concluded (engine.start turn world).1 turn.agent.mode
            (afterStages engine turn world fuel).trail) ∨
      ownTexts false (afterStages engine turn world fuel).trail = [budgetExhaustedMessage] ∧
        ∃ s, Visits engine turn world fuel .summarizing s ∧ s.spending.modelIsSpent = true := by
  rcases (visits_start engine turn world fuel).ends with ⟨hpasses, -⟩ |
    ⟨c, s, halt, hpasses, hstopped, herr⟩
  · have hvisits : Visits engine turn world fuel .done (afterStages engine turn world fuel) :=
      hpasses
    rcases hvisits.speaking with ⟨hsilent, hconcluded⟩ | hspoken
    · exact Or.inl ⟨hsilent.texts, fun _ => hconcluded⟩
    · exact Or.inr hspoken
  · have hvisits : Visits engine turn world fuel c s := hpasses
    have hc : c ≠ .done := by
      rintro rfl
      cases hstopped
    exact Or.inl ⟨(hvisits.speaking.silent hc).stopped hstopped, fun hok => by
      rw [herr] at hok
      cases hok⟩

/-- The model calls are used up when there are as many as may be. -/
theorem Visits.spent_iff (h : Visits engine turn world fuel c s) :
    s.spending.modelIsSpent = true ↔ turn.agent.runSpec.budget.model.maxCalls ≠ 0 ∧
      (callsOf s.journal).length = turn.agent.runSpec.budget.model.maxCalls := by
  have htallied := h.tallied
  have hlimited := htallied.limited
  rw [State.callsOf_trail] at hlimited
  unfold Spending.modelIsSpent Scope.isSpent
  rw [htallied.budget, htallied.counted, State.callsOf_trail]
  simp only [Bool.and_eq_true, bne_iff_ne, ne_eq, decide_eq_true_eq]
  constructor
  · rintro ⟨hmax, hle⟩
    have hge := hlimited hmax
    exact ⟨hmax, by omega⟩
  · rintro ⟨hmax, heq⟩
    exact ⟨hmax, by omega⟩

/-- A run that comes to its final answer without model calls left says so, and its stages are
done. -/
theorem Visits.exhausted (hreads : turn.client.KeepsReading)
    (h : Visits engine turn world fuel .summarizing s) (hspent : s.spending.modelIsSpent = true) :
    (engine.run turn world fuel).stages = .ok () ∧
      (afterStages engine turn world fuel).trail = s.trail ++ [.event (.content
        (IdKind.block.mint engine.supply s.assembly.minted) budgetExhaustedMessage)] ∧
      (afterStages engine turn world fuel).assembly.minted = s.assembly.minted + 1 := by
  have hsaid : (say (engine.start turn world).1 budgetExhaustedMessage).run s =
      ((engine.run turn world fuel).stages, afterStages engine turn world fuel) := by
    rw [← h.outcome]
    simp only [rest, summarize, run_get_bind, hspent, if_true]
  obtain ⟨k, hstands⟩ := h.resting
  cases hstages : (engine.run turn world fuel).stages with
  | ok _ =>
    rw [hstages] at hsaid
    have hspec := (say_spec hstands budgetExhaustedMessage).of_run hsaid
    refine ⟨rfl, ?_, ?_⟩
    · rw [hspec.trail, ← hstands.assembly]
      rfl
    · rw [hspec.assembly, hstands.assembly]
  | error halt =>
    rw [hstages] at hsaid
    obtain ⟨t, l, a, hran⟩ := ran engine turn world fuel
    obtain ⟨⟨rfl, -⟩, -⟩ := (say_spec hstands budgetExhaustedMessage).of_run hsaid
    exact absurd hstages (hran.read hreads)

theorem State.answersOf_trail : answersOf s.trail = answersOf s.journal :=
  State.filterMap_trail fun _ _ _ _ => rfl

/-- What follows a final answer for which there are no model calls left. -/
theorem Visits.apologises (hreads : turn.client.KeepsReading)
    (hids : Set.InjOn engine.supply
      (Set.Iio (afterStages engine turn world fuel).assembly.minted))
    (h : Visits engine turn world fuel .summarizing s) (hspent : s.spending.modelIsSpent = true) :
    engineTexts engine turn world fuel = [budgetExhaustedMessage] ∧
      (engine.run turn world fuel).final.requests = s.requests ∧
      ∃ block, (engine.run turn world fuel).delivered =
          s.events ++ [.content block budgetExhaustedMessage, .finish .stop] ∧
        ∀ e ∈ s.events, e.block? ≠ some block := by
  obtain ⟨hstages, htrail, hminted⟩ := h.exhausted hreads hspent
  have hsilent : Silent s := h.speaking
  refine ⟨?_, ?_, IdKind.block.mint engine.supply s.assembly.minted, ?_, fun e he hblock => ?_⟩
  · obtain ⟨block, htexts⟩ := engineTexts_eq engine world fuel hreads
    rw [htexts, hstages, htrail, ownTexts_append, hsilent.texts, hsilent.closed]
    rfl
  · have hnone : requestsOf [.event (.content (IdKind.block.mint engine.supply s.assembly.minted)
        budgetExhaustedMessage)] = [] := rfl
    rw [← State.requestsOf_trail, (final_uncounted engine turn world fuel).1.requests, htrail,
      requestsOf_append, hnone, List.append_nil, State.requestsOf_trail]
  · obtain ⟨t, l, a, hran⟩ := ran engine turn world fuel
    rw [hran.delivered_eq hreads, ← State.eventsOf_trail, htrail, eventsOf_append,
      State.eventsOf_trail, hstages, List.append_assoc]
    rfl
  · -- The blocks of the run up to here were minted before this one.
    obtain ⟨k, hstands⟩ := h.resting
    obtain ⟨i, hi, heq⟩ := hstands.ready.texts e he _ hblock
    rw [hminted] at hids
    have hsame := mint_injOn hids (Nat.lt_succ_self _) (Nat.lt_succ_of_lt hi) heq
    omega

/-- A run with a limit on its model calls keeps to it, and sends requests for admitted calls only.
It says that the calls are used up if and only if they are when it comes to its final answer, and
then it does so once, in a block of its own, asks for nothing more and is finished. A run that comes
through its stages without saying so ends with a decision that calls nothing, or with a final answer
for which no tools are offered. -/
theorem exhaustion_is_reported (engine : Engine) (turn : UserTurn) (world : World) (fuel : Nat)
    (hreads : turn.client.KeepsReading)
    (hids : Set.InjOn engine.supply
      (Set.Iio (afterStages engine turn world fuel).assembly.minted)) :
    let limit := turn.agent.runSpec.budget.model
    let o := engine.run turn world fuel
    let texts := engineTexts engine turn world fuel
    (limit.maxCalls ≠ 0 → (callsOf o.final.journal).length ≤ limit.maxCalls) ∧
    AskedFor limit.attempts (callsOf o.final.journal) o.final.requests ∧
    (budgetExhaustedMessage ∈ texts ↔ limit.maxCalls ≠ 0 ∧
      ∃ s, Visits engine turn world fuel .summarizing s ∧
        (callsOf s.journal).length = limit.maxCalls) ∧
    (∀ s, Visits engine turn world fuel .summarizing s → limit.maxCalls ≠ 0 →
      (callsOf s.journal).length = limit.maxCalls →
      texts = [budgetExhaustedMessage] ∧ o.final.requests = s.requests ∧
      ∃ block, o.delivered = s.events ++ [.content block budgetExhaustedMessage, .finish .stop] ∧
        ∀ e ∈ s.events, e.block? ≠ some block) ∧
    (o.stages = .ok () → budgetExhaustedMessage ∉ texts →
      Concluded (engine.start turn world).1 turn.agent.mode o.final.journal) := by
  intro limit o texts
  have htallied := final_tallied engine turn world fuel
  have hapologises {s : State} (hs : Visits engine turn world fuel .summarizing s)
      (hmax : limit.maxCalls ≠ 0) (hcalls : (callsOf s.journal).length = limit.maxCalls) :=
    hs.apologises hreads hids (hs.spent_iff.mpr ⟨hmax, hcalls⟩)
  have hmem_iff : budgetExhaustedMessage ∈ texts ↔
      budgetExhaustedMessage ∈ ownTexts false (afterStages engine turn world fuel).trail :=
    exhausted_mem_engineTexts hreads
  refine ⟨?_, ?_, ⟨fun hmem => ?_, ?_⟩, fun s hs hmax hcalls => hapologises hs hmax hcalls,
    fun hok hquiet => ?_⟩
  · rw [← State.callsOf_trail]
    exact htallied.limited
  · rw [← State.callsOf_trail, ← State.requestsOf_trail]
    exact htallied.asked
  · have hown := hmem_iff.mp hmem
    rcases stages_speaking engine turn world fuel with ⟨hnone, -⟩ | ⟨-, s, hs, hspent⟩
    · rw [hnone] at hown
      cases hown
    · have hcalls := hs.spent_iff.mp hspent
      exact ⟨hcalls.1, s, hs, hcalls.2⟩
  · rintro ⟨hmax, s, hs, hcalls⟩
    have honly : texts = [budgetExhaustedMessage] := (hapologises hs hmax hcalls).1
    rw [honly]
    exact List.mem_singleton_self _
  · rcases stages_speaking engine turn world fuel with ⟨-, hconcluded⟩ | ⟨hown, -⟩
    · obtain ⟨time, request, answer, hcall, hanswer, hlast⟩ := hconcluded hok
      obtain ⟨es, said, htrail, -⟩ := final_eq engine turn world fuel
      refine ⟨time, request, answer, ?_, ?_, hlast⟩
      · rw [← State.callsOf_trail, (final_uncounted engine turn world fuel).1.calls]
        exact hcall
      · have hnone : answersOf (es.map .event) = [] := by
          simp [answersOf, Function.comp_def, Entry.answer?]
        rw [← State.answersOf_trail, htrail, answersOf_append, hnone, List.append_nil]
        exact hanswer
    · refine absurd (hmem_iff.mpr ?_) hquiet
      rw [hown]
      exact List.mem_singleton_self _

end Whole

/-- A turn that may ask the model once. -/
def askingOnce : UserTurn :=
  limited { Budget.unlimited with model := { Budget.unlimited.model with maxCalls := 1 } }
    (firstTurn .react)

/-- An engine whose model calls the echo first of all. -/
def echoing : Engine := rehearsal [Script.ofChunks (Script.calls [("c1", "echo", .empty)]) .done]

/-- A run that spends its only model call on a decision says that there is none left. -/
theorem second_call_is_denied : ∃ s block,
    Visits echoing askingOnce (.new 1) 0 .summarizing s ∧ (callsOf s.journal).length = 1 ∧
      engineTexts echoing askingOnce (.new 1) 0 = [budgetExhaustedMessage] ∧
      (echoing.run askingOnce (.new 1) 0).delivered =
        s.events ++ [.content block budgetExhaustedMessage, .finish .stop] := by
  have minted : (afterStages echoing askingOnce (.new 1) 0).assembly.minted = 3 := by
    decide +kernel
  have distinct : ∀ i < 3, ∀ j < 3, Uuid.timed 0 i = Uuid.timed 0 j → i = j := by decide
  have said : budgetExhaustedMessage ∈ engineTexts echoing askingOnce (.new 1) 0 := by
    decide +kernel
  obtain ⟨-, -, hsaid, hends, -⟩ := exhaustion_is_reported echoing askingOnce (.new 1) 0
    Client.reader_keepsReading (by
      rw [minted]
      exact fun i hi j hj hij => distinct i hi j hj hij)
  obtain ⟨hmax, s, hvisits, hcalls⟩ := hsaid.mp said
  obtain ⟨honly, -, block, hdelivered, -⟩ := hends s hvisits hmax hcalls
  exact ⟨s, block, hvisits, hcalls, honly, hdelivered⟩

end AgentRun.Run
