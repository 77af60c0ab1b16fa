import Mathlib.Logic.Relation
import AgentRun.Proofs.Dispatch
import AgentRun.Proofs.ModelCall

/-!
# The course of a run

Whatever the mode, the stages of a run are made of a few acts: the model answers and the run then
owes an answer to each call that it keeps, a call that is owed is answered, the engine says
something, marks a stage or changes the plan. `Act` is the relation between the points before and
after an act. A run that comes through its stages went from act to act (`Reached`); one that halts
went from act to act and then broke off in a way that its halt tells (`Halted`).

What is true of every point that acts lead to is true of every run in every mode.
-/

namespace AgentRun.Run

/-- A point between two acts of a run. -/
structure Point where
  /-- The calls that are still to be answered, in order. -/
  owed : List Call
  /-- What happened. -/
  trail : List Entry
  ledger : Ledger

/-- What a mode asks the model for, and what it keeps of the calls of the answer. -/
inductive Poses (env : Env) : AgentMode → Ask → (List Call → List Call) → Prop
  | oneshot : Poses env .oneshot (oneshotAsk env) (List.take 1)
  | react : Poses env .react (reactAsk env) (List.take 1)
  | plan : Poses env .planExecute (planAsk env) id
  | task (task : PlanTask) : Poses env .planExecute (taskAsk env task) id
  | summary (mode : AgentMode) : Poses env mode (summaryAsk env.agent) (List.take 0)

/-- The conversation after a turn of which some calls are kept. -/
def committed (history : List Message) (turn : Turn) (calls : List Call) : List Message :=
  let kept := { turn with calls := calls }
  if kept.isSilent then history else history ++ [.assistant kept.message]

/-- One act of a run in a mode. -/
inductive Act (env : Env) (mode : AgentMode) : Point → Point → Prop
  /-- The model answers, and the run owes an answer to what it keeps of the calls. -/
  | answer {t u : List Entry} {l : Ledger} {ask : Ask} {keep : List Call → List Call} {turn : Turn}
      {spending : Spending} (hask : Poses env mode ask keep)
      (hadmitted : l.spending.admitModel = .ok spending)
      (hu : AnswerTrail env.supply (requestFor env l.history ask) u turn) :
      Act env mode ⟨[], t, l⟩ ⟨keep turn.calls, t ++ u, { l with
        spending := spending
        history := committed l.history turn (keep turn.calls) }⟩
  /-- The first call that is owed is answered. -/
  | dispatch {t v : List Entry} {l l' : Ledger} {call : Call} {rest : List Call}
      (h : Answered call l v l') : Act env mode ⟨call :: rest, t, l⟩ ⟨rest, t ++ v, l'⟩
  /-- The engine says that there are no model calls left. -/
  | say {t : List Entry} {l : Ledger} (block : String) (h : l.spending.modelIsSpent = true) :
      Act env mode ⟨[], t, l⟩ ⟨[], t ++ [.event (.content block budgetExhaustedMessage)],
        { l with history := l.history ++ [.assistant (.ofText budgetExhaustedMessage)] }⟩
  /-- A stage begins. -/
  | mark {t : List Entry} {l : Ledger} (label : String) :
      Act env mode ⟨[], t, l⟩ ⟨[], t ++ [.event (.stage label)], l⟩
  /-- A task is given up. -/
  | giveUp {t : List Entry} {l : Ledger} {plan : Plan} (taskId : String)
      (h : l.plan.setStatus? taskId .failed = .ok plan) :
      Act env mode ⟨[], t, l⟩ ⟨[], t ++ [.event (.planUpdate plan)], { l with plan := plan }⟩
  /-- The open tasks are dropped. -/
  | cancel {t : List Entry} {l : Ledger} (h : l.plan.hasOpen = true) :
      Act env mode ⟨[], t, l⟩
        ⟨[], t ++ [.event (.planUpdate l.plan.cancelOpen)], { l with plan := l.plan.cancelOpen }⟩

/-- How a run in a mode breaks off: the point of its last act, its halt, and the trail and the
ledger that it leaves. -/
inductive Break (env : Env) (mode : AgentMode) : Point → Halt → List Entry → Ledger → Prop
  /-- The model failed. -/
  | model {t u : List Entry} {l : Ledger} {ask : Ask} {keep : List Call → List Call} {h : Halt}
      {spending : Spending} (hask : Poses env mode ask keep)
      (hadmitted : l.spending.admitModel = .ok spending)
      (hu : BrokenTrail (requestFor env l.history ask) u) (hh : ModelFault h) :
      Break env mode ⟨[], t, l⟩ h (t ++ u) { l with spending := spending }
  /-- The first call that is owed halted the run. -/
  | call {t v : List Entry} {l l' : Ledger} {call : Call} {rest : List Call} {h : Halt}
      (hv : Unanswered call l v l') (hh : CallFault h) :
      Break env mode ⟨call :: rest, t, l⟩ h (t ++ v) l'
  /-- The run was not followed any further. -/
  | cut {t : List Entry} {l : Ledger} : Break env mode ⟨[], t, l⟩ .cut t l
  /-- The client was found gone, in the course of an act. -/
  | gone {t v : List Entry} {l l' : Ledger} {owed : List Call}
      (hv : ∀ r ∈ requestsOf v, owed = [] ∧ r.history = l.history) :
      Break env mode ⟨owed, t, l⟩ (.failed .consumerGone) (t ++ v) l'

/-- A run that acts led from a point to where it stands now. -/
def Reached (env : Env) (mode : AgentMode) (p : Point) (owed : List Call) (s : State) : Prop :=
  ∃ t l k, Relation.ReflTransGen (Act env mode) p ⟨owed, t, l⟩ ∧ Stands env t l (.start k) s

/-- A run that acts led from a point to another, where it broke off. -/
def Halted (env : Env) (mode : AgentMode) (p : Point) (h : Halt) (s : State) : Prop :=
  ∃ q t l a, Relation.ReflTransGen (Act env mode) p q ∧ Break env mode q h t l ∧
    Stands env t l a s ∧ (h = .failed .consumerGone → s.channel.connected = false)

/-- A run for which the model has just put together an answer. -/
def Answering (env : Env) (mode : AgentMode) (p : Point) (ask : Ask) (turn : Turn) (s : State) :
    Prop :=
  ∃ t l spending u k, Relation.ReflTransGen (Act env mode) p ⟨[], t, l⟩ ∧
    l.spending.admitModel = .ok spending ∧
    AnswerTrail env.supply (requestFor env l.history ask) u turn ∧
    Stands env (t ++ u) { l with spending := spending } (.start k) s

/-! ## What is kept -/

/-- Texts that begin differently are different, whatever follows. -/
theorem append_ne_of_head {s t u : String} (c d : Char) (hcd : c ≠ d)
    (hs : s.toList.head? = some c) (hu : u.toList.head? = some d) : s ++ t ≠ u := by
  rintro rfl
  rw [String.toList_append, List.head?_append, hs] at hu
  exact hcd (Option.some.inj hu)

theorem planDirective_ne_summary (available : List String) :
    planDirective available ≠ summaryDirective := by
  unfold planDirective
  rw [String.append_assoc, String.append_assoc]
  exact append_ne_of_head 'B' 'W' (by decide) (by decide) (by decide)

theorem taskDirective_ne_summary (task : PlanTask) : taskDirective task ≠ summaryDirective := by
  unfold taskDirective
  rw [String.append_assoc, String.append_assoc, String.append_assoc, String.append_assoc,
    String.append_assoc]
  exact append_ne_of_head 'C' 'W' (by decide) (by decide) (by decide)

/-- The request alone tells what is kept of the calls of its answer. -/
theorem Poses.keptOf_eq {env : Env} {mode : AgentMode} {ask : Ask} {keep : List Call → List Call}
    (h : Poses env mode ask keep) (history : List Message) (turn : Turn) :
    keptOf mode (requestFor env history ask) turn = keep turn.calls := by
  cases h with
  | oneshot => simp [keptOf, requestFor, oneshotAsk]
  | react => simp [keptOf, requestFor, reactAsk]
  | plan => simp [keptOf, requestFor, planAsk, planDirective_ne_summary]
  | task task => simp [keptOf, requestFor, taskAsk, taskDirective_ne_summary]
  | summary => simp [keptOf, requestFor, summaryAsk]

variable {env : Env} {mode : AgentMode} {p : Point} {owed : List Call} {ask : Ask}
  {keep : List Call → List Call} {turn : Turn} {s : State}

theorem Stands.plan_eq {t : List Entry} {l : Ledger} {a : Assembly} (h : Stands env t l a s) :
    s.plan = l.plan := congrArg Ledger.plan h.ledger

/-- An act that was found to break off because the client is gone. -/
theorem Halted.of_gone {t v : List Entry} {l l' : Ledger} {a : Assembly} {h : Halt} {s' : State}
    (hr : Relation.ReflTransGen (Act env mode) p ⟨owed, t, l⟩) (hg : Gone h s')
    (hv : ∀ r ∈ requestsOf v, owed = [] ∧ r.history = l.history)
    (hs : Stands env (t ++ v) l' a s') : Halted env mode p h s' := by
  obtain ⟨rfl, hconn⟩ := hg
  exact ⟨_, _, _, _, hr, .gone hv, hs, fun _ => hconn⟩

/-- An act without requests that was found to break off because the client is gone. -/
theorem Halted.of_gone_quiet {t v : List Entry} {l l' : Ledger} {a : Assembly} {h : Halt}
    {s' : State} (hr : Relation.ReflTransGen (Act env mode) p ⟨owed, t, l⟩) (hg : Gone h s')
    (hv : requestsOf v = []) (hs : Stands env (t ++ v) l' a s') : Halted env mode p h s' :=
  .of_gone hr hg (fun _ h => absurd (hv ▸ h) List.not_mem_nil) hs

theorem BrokenTrail.requests_eq {request : ModelRequest} {u : List Entry}
    (h : BrokenTrail request u) : ∀ r ∈ requestsOf u, r = request := by
  intro r hr
  cases h with
  | broken htries hes =>
    simp only [requestsOf_append, requestsOf_map_event, List.append_nil] at hr
    obtain ⟨e, he, her⟩ := List.mem_filterMap.mp hr
    rcases List.mem_cons.mp he with rfl | he
    · cases her
    · obtain ⟨time, rfl⟩ := htries e he
      exact (Option.some.inj her).symm

/-! ## The parts of the stages -/

theorem callModel_course (r : Reached env mode p [] s) (hask : Poses env mode ask keep) :
    Ensures (callModel env ask) s
      (fun answer s' => match answer with
        | none => s.spending.modelIsSpent = true ∧ s' = s
        | some turn => Answering env mode p ask turn s' ∧ s'.plan = s.plan)
      (Halted env mode p) := by
  obtain ⟨t, l, k, hr, hs⟩ := r
  refine (callModel_spec hs ask).mono (fun answer s' h => ?_) (fun halt s' h => ?_)
  · cases answer with
    | none => exact ⟨by rw [← h.1, ← hs.ledger]; rfl, h.2⟩
    | some turn =>
      obtain ⟨spending, u, k', hadmitted, hu, -, hs'⟩ := h
      exact ⟨⟨t, l, spending, u, k', hr, hadmitted, hu, hs'⟩, hs'.plan_eq.trans hs.plan_eq.symm⟩
  · obtain ⟨hf, spending, u, a, hadmitted, hu, -, hs'⟩ := h
    rcases hf with hf | hg
    · refine ⟨_, _, _, _, hr, .model hask hadmitted hu hf, hs', fun hgone => ?_⟩
      subst hgone
      cases hf
    · have asked : ∀ r ∈ requestsOf u, [] = ([] : List Call) ∧ r.history = l.history :=
        fun r hr => ⟨rfl, congrArg ModelRequest.history (hu.requests_eq r hr)⟩
      exact .of_gone hr hg asked hs'

/-- A turn of which some calls are kept goes into the conversation. -/
theorem commit_spec {t : List Entry} {l : Ledger} {a : Assembly} (p : Stands env t l a s)
    (turn : Turn) (calls : List Call) :
    Ensures (commit { turn with calls := calls }) s
      (fun _ s' => Stands env t { l with history := committed l.history turn calls } a s')
      (fun _ _ => False) := by
  simp only [commit, ensures_ite]
  refine ⟨fun hsilent => ?_, fun hsilent => ?_⟩
  · simpa [committed, hsilent] using p
  · rw [show committed l.history turn calls = l.history ++ [.assistant _] from if_neg hsilent]
    exact p.addMessage _

theorem commit_course (r : Answering env mode p ask turn s) (hask : Poses env mode ask keep) :
    Ensures (commit { turn with calls := keep turn.calls }) s
      (fun _ s' => Reached env mode p (keep turn.calls) s' ∧ s'.plan = s.plan)
      (fun _ _ => False) := by
  obtain ⟨t, l, spending, u, k, hr, hadmitted, hu, hs⟩ := r
  refine (commit_spec hs turn (keep turn.calls)).imp fun _ s' hs' => ?_
  exact ⟨⟨_, _, k, hr.tail (.answer hask hadmitted hu), hs'⟩, hs'.plan_eq.trans hs.plan_eq.symm⟩

theorem dispatchAll_course {calls : List Call} (r : Reached env mode p calls s) :
    Ensures (dispatchAll env calls) s (fun _ s' => Reached env mode p [] s')
      (Halted env mode p) := by
  induction calls generalizing s with
  | nil => exact r
  | cons call rest ih =>
    obtain ⟨t, l, k, hr, hs⟩ := r
    simp only [dispatchAll, ensures_bind]
    refine (dispatch_spec hs call).mono (fun _ s' h => ?_) (fun halt s' h => ?_)
    · obtain ⟨v, l', k', hv, hs'⟩ := h
      exact ih ⟨_, _, k', hr.tail (.dispatch hv), hs'⟩
    · obtain ⟨v, l', a, hs', ⟨hf | hg, hv⟩ | ⟨hg, hv⟩⟩ := h
      · refine ⟨_, _, _, _, hr, .call hv hf, hs', fun hgone => ?_⟩
        subst hgone
        cases hf
      · exact .of_gone_quiet hr hg (requestsOf_ofCall hv.ofCall) hs'
      · exact .of_gone_quiet hr hg (requestsOf_ofCall hv.ofCall) hs'

theorem sayExhausted_course (r : Reached env mode p [] s) (h : s.spending.modelIsSpent = true) :
    Ensures (say env budgetExhaustedMessage) s
      (fun _ s' => Reached env mode p [] s' ∧ s'.plan = s.plan) (Halted env mode p) := by
  obtain ⟨t, l, k, hr, hs⟩ := r
  have hspent : l.spending.modelIsSpent = true := by rw [← h, ← hs.ledger]; rfl
  refine (say_spec hs budgetExhaustedMessage).mono (fun _ s' hs' => ?_) (fun halt s' h => ?_)
  · exact ⟨⟨_, _, k + 1, hr.tail (.say _ hspent), hs'⟩, hs'.plan_eq.trans hs.plan_eq.symm⟩
  · exact .of_gone_quiet (v := []) hr h.1 rfl (by simpa using h.2)

theorem stageMarker_course (r : Reached env mode p [] s) (label : String) :
    Ensures (stageMarker env label) s
      (fun _ s' => Reached env mode p [] s' ∧ s'.plan = s.plan) (Halted env mode p) := by
  obtain ⟨t, l, k, hr, hs⟩ := r
  refine (stageMarker_spec hs label).mono (fun _ s' hs' => ?_) (fun halt s' h => ?_)
  · exact ⟨⟨_, _, k, hr.tail (.mark label), hs'⟩, hs'.plan_eq.trans hs.plan_eq.symm⟩
  · exact .of_gone_quiet (v := []) hr h.1 rfl (by simpa using h.2)

/-- A change of the plan by the engine itself, with its update. -/
theorem changed_course {t : List Entry} {l : Ledger} {k : Nat} {plan : Plan}
    (hr : Relation.ReflTransGen (Act env mode) p ⟨[], t, l⟩) (hs : Stands env t l (.start k) s)
    (act : Act env mode ⟨[], t, l⟩
      ⟨[], t ++ [.event (.planUpdate plan)], { l with plan := plan }⟩) :
    Ensures (showPlan env) { s with plan := plan }
      (fun _ s' => Reached env mode p [] s' ∧ s'.plan = plan) (Halted env mode p) := by
  have hs₁ : Stands env t { l with plan := plan } (.start k) { s with plan := plan } :=
    hs.withLedger (by rw [← hs.ledger]; rfl) rfl rfl rfl rfl
  refine (showPlan_spec hs₁).mono (fun _ s' hs' => ?_) (fun halt s' h => ?_)
  · exact ⟨⟨_, _, k, hr.tail act, hs'⟩, hs'.plan_eq⟩
  · exact .of_gone_quiet (v := []) hr h.1 rfl (by simpa using h.2)

theorem setStatus?_of_open {plan : Plan} {task : PlanTask} (h : isSettled plan task = false)
    (status : TaskStatus) : ∃ plan', plan.setStatus? task.taskId status = .ok plan' := by
  unfold isSettled at h
  unfold Plan.setStatus?
  cases htask : plan.task? task.taskId with
  | none => simp [htask] at h
  | some t =>
    have hopen : t.status.isTerminal = false := by simpa [htask] using h
    exact ⟨{ plan with tasks := Plan.mark task.taskId status plan.tasks }, by simp [hopen]⟩

/-- A task that is given up is not settled, so giving it up never fails. -/
theorem giveUp_course {task : PlanTask} (r : Reached env mode p [] s)
    (h : isSettled s.plan task = false) :
    Ensures (giveUp env task) s (fun _ s' => Reached env mode p [] s') (Halted env mode p) := by
  obtain ⟨t, l, k, hr, hs⟩ := r
  obtain ⟨plan, hplan⟩ := setStatus?_of_open h .failed
  simp only [giveUp, ensures_bind, ensures_get, hplan, ensures_set]
  rw [hs.plan_eq] at hplan
  exact (changed_course hr hs (.giveUp task.taskId hplan)).imp (fun _ _ h => h.1)

theorem isOpen_cancel (t : PlanTask) : (Plan.cancel t).isOpen = false := by
  unfold Plan.cancel
  split
  · rfl
  · exact Bool.eq_false_iff.mpr ‹_›

theorem hasOpen_cancelOpen (plan : Plan) : plan.cancelOpen.hasOpen = false := by
  simpa [Plan.cancelOpen, Plan.hasOpen] using fun t _ => isOpen_cancel t

theorem cancelOpen_course (r : Reached env mode p [] s) :
    Ensures (cancelOpen env) s (fun _ s' => Reached env mode p [] s' ∧ s'.plan.hasOpen = false)
      (Halted env mode p) := by
  have settled (h : ¬s.plan.hasOpen = true) : Reached env mode p [] s ∧ s.plan.hasOpen = false :=
    ⟨r, Bool.eq_false_iff.mpr h⟩
  obtain ⟨t, l, k, hr, hs⟩ := r
  simp only [cancelOpen, ensures_bind, ensures_get, ensures_ite, ensures_pure, ensures_set]
  refine ⟨fun hopen => ?_, settled⟩
  rw [hs.plan_eq] at hopen ⊢
  refine (changed_course hr hs (.cancel hopen)).imp (fun _ s' h => ⟨h.1, ?_⟩)
  rw [h.2]
  exact hasOpen_cancelOpen l.plan

/-! ## The stages -/

/-- The final answer changes nothing of the plan. -/
theorem summarize_course (r : Reached env mode p [] s) :
    Ensures (summarize env) s (fun _ s' => Reached env mode p [] s' ∧ s'.plan = s.plan)
      (Halted env mode p) := by
  simp only [summarize, ensures_bind, ensures_get, ensures_ite]
  refine ⟨fun hspent => sayExhausted_course r hspent, fun _ => ?_⟩
  refine (callModel_course r (.summary mode)).imp (fun answer s' h => ?_)
  cases answer with
  | none =>
    obtain ⟨hspent, rfl⟩ := h
    exact sayExhausted_course r hspent
  | some turn =>
    refine (commit_course h.1 (.summary mode)).mono (fun _ s'' h' => ?_) (fun _ _ h => h.elim)
    exact ⟨h'.1, h'.2.trans h.2⟩

/-- What comes after a decision of which one call is kept: the answer to that call and the rest of
the run, or nothing. -/
theorem decided_course {rest : RunM Unit} (r : Answering env mode p ask turn s)
    (hask : Poses env mode ask (List.take 1))
    (hrest : ∀ s', Reached env mode p [] s' →
      Ensures rest s' (fun _ s'' => Reached env mode p [] s'') (Halted env mode p)) :
    Ensures (do
      commit (turn.keep 1)
      if (turn.keep 1).hasCalls then
        dispatchAll env (turn.keep 1).calls
        rest) s
      (fun _ s' => Reached env mode p [] s') (Halted env mode p) := by
  simp only [ensures_bind, ensures_ite, ensures_pure]
  refine (commit_course r hask).mono (fun _ s₁ h => ?_) (fun _ _ h => h.elim)
  refine ⟨fun _ => ?_, fun hcalls => ?_⟩
  · exact (dispatchAll_course h.1).imp (fun _ s₂ r₂ => hrest s₂ r₂)
  · have none : turn.calls.take 1 = [] := by simpa [Turn.hasCalls, Turn.keep] using hcalls
    exact none ▸ h.1

theorem oneshot_course (r : Reached env .oneshot p [] s) :
    Ensures (oneshot env) s (fun _ s' => Reached env .oneshot p [] s') (Halted env .oneshot p) := by
  simp only [oneshot, ensures_bind]
  refine (callModel_course r .oneshot).imp (fun answer s₁ h => ?_)
  cases answer with
  | none =>
    obtain ⟨-, rfl⟩ := h
    exact (summarize_course r).imp (fun _ _ h => h.1)
  | some turn =>
    exact decided_course h.1 .oneshot fun _ r' =>
      (summarize_course r').imp (fun _ _ h => h.1)

theorem react_course (left : Nat) (r : Reached env .react p [] s) :
    Ensures (react env left) s (fun _ s' => Reached env .react p [] s') (Halted env .react p) := by
  induction left generalizing s with
  | zero => exact (summarize_course r).imp (fun _ _ h => h.1)
  | succ left ih =>
    have summary : Ensures (summarize env) s (fun _ s' => Reached env .react p [] s')
        (Halted env .react p) :=
      (summarize_course r).imp (fun _ _ h => h.1)
    simp only [react, isTimedOut, ensures_bind, ensures_get, ensures_pure, ensures_ite]
    refine ⟨fun _ => summary, fun _ => ?_⟩
    refine (callModel_course r .react).imp (fun answer s₁ h => ?_)
    cases answer with
    | none =>
      obtain ⟨-, rfl⟩ := h
      exact summary
    | some turn => exact decided_course h.1 .react fun _ r' => ih r'

/-! ## Plans -/

theorem makePlan_course (r : Reached env .planExecute p [] s) :
    Ensures (makePlan env) s (fun _ s' => Reached env .planExecute p [] s')
      (Halted env .planExecute p) := by
  simp only [makePlan, ensures_bind]
  refine (callModel_course r .plan).imp (fun answer s₁ h => ?_)
  cases answer with
  | none =>
    obtain ⟨-, rfl⟩ := h
    exact r
  | some turn =>
    simp only [ensures_bind]
    exact (commit_course h.1 .plan).mono (fun _ _ h₂ => dispatchAll_course h₂.1)
      (fun _ _ h => h.elim)

theorem workOn_course (task : PlanTask) (left : Nat) (r : Reached env .planExecute p [] s) :
    Ensures (workOn env task left) s (fun _ s' => Reached env .planExecute p [] s')
      (Halted env .planExecute p) := by
  induction left generalizing s with
  | zero =>
    simp only [workOn, ensures_bind, ensures_get, ensures_ite, ensures_pure]
    exact ⟨fun _ => r, fun hopen => giveUp_course r (Bool.eq_false_iff.mpr hopen)⟩
  | succ left ih =>
    simp only [workOn, isTimedOut, ensures_bind, ensures_get, ensures_pure, ensures_ite]
    -- The task is settled by now, or the time is up, or the model is asked.
    refine ⟨fun _ => r, fun _ => ⟨fun _ => r, fun _ => ?_⟩⟩
    refine (callModel_course r (.task task)).imp (fun answer s₁ h => ?_)
    cases answer with
    | none =>
      obtain ⟨-, rfl⟩ := h
      exact r
    | some turn =>
      simp only [ensures_bind]
      refine (commit_course h.1 (.task task)).mono (fun _ s₂ h₂ => ?_) (fun _ _ h => h.elim)
      exact (dispatchAll_course h₂.1).imp (fun _ _ r₃ => ih r₃)

/-- Working off a plan that comes to its end leaves no task open. -/
theorem execute_course (rounds fuel : Nat) (r : Reached env .planExecute p [] s) :
    Ensures (execute env rounds fuel) s
      (fun _ s' => Reached env .planExecute p [] s' ∧ s'.plan.hasOpen = false)
      (Halted env .planExecute p) := by
  induction fuel generalizing s with
  | zero =>
    -- A run that is not followed any further has not come to its end.
    obtain ⟨t, l, k, hr, hs⟩ := r
    exact ⟨_, _, _, _, hr, .cut, hs, fun h => by cases h⟩
  | succ fuel ih =>
    simp only [execute, isTimedOut, ensures_bind, ensures_get]
    cases hnext : s.plan.nextOpen? with
    | none =>
      refine ⟨r, ?_⟩
      simpa [Plan.hasOpen, Plan.nextOpen?] using hnext
    | some task =>
      simp only [ensures_ite, ensures_bind]
      refine ⟨fun _ => cancelOpen_course r, fun _ => ?_⟩
      refine (workOn_course task rounds r).imp (fun settled s₁ r₁ => ?_)
      exact ⟨fun _ => ih r₁, fun _ => cancelOpen_course r₁⟩

/-- What comes after the planning. -/
theorem planned_course (rounds fuel : Nat) (r : Reached env .planExecute p [] s) :
    Ensures (do
      stageMarker env "execute"
      execute env rounds fuel
      stageMarker env "summary"
      summarize env) s
      (fun _ s' => Reached env .planExecute p [] s' ∧ s'.plan.hasOpen = false)
      (Halted env .planExecute p) := by
  simp only [ensures_bind]
  refine (stageMarker_course r "execute").imp (fun _ s₁ h₁ => ?_)
  refine (execute_course rounds fuel h₁.1).imp (fun _ s₂ h₂ => ?_)
  refine (stageMarker_course h₂.1 "summary").imp (fun _ s₃ h₃ => ?_)
  refine (summarize_course h₃.1).imp (fun _ s₄ h₄ => ⟨h₄.1, ?_⟩)
  rw [h₄.2, h₃.2, h₂.2]

theorem planExecute_course (rounds fuel : Nat) (r : Reached env .planExecute p [] s) :
    Ensures (planExecute env rounds fuel) s
      (fun _ s' => Reached env .planExecute p [] s' ∧ s'.plan.hasOpen = false)
      (Halted env .planExecute p) := by
  unfold planExecute
  rw [ensures_bind]
  refine (stageMarker_course r "plan").imp (fun _ s₁ h₁ => ?_)
  have planned {s' : State} (r' : Reached env .planExecute p [] s') := planned_course rounds fuel r'
  simp only [isTimedOut, ensures_bind, ensures_get, ensures_ite] at planned ⊢
  refine ⟨fun _ => ⟨fun _ => ?_, fun _ => planned h₁.1⟩, fun _ => planned h₁.1⟩
  exact (makePlan_course h₁.1).imp (fun _ s₂ r₂ => planned r₂)

/-- Acts lead through the stages of every run, and no task of a plan that was worked off is open. -/
theorem stages_course (runner : Runner) (fuel : Nat) (r : Reached env runner.mode p [] s) :
    Ensures (runner.stages env fuel) s
      (fun _ s' => Reached env runner.mode p [] s' ∧
        (runner.mode = .planExecute → s'.plan.hasOpen = false))
      (Halted env runner.mode p) := by
  cases runner with
  | oneshot => exact (oneshot_course r).imp (fun _ _ h => ⟨h, fun hm => by cases hm⟩)
  | react maxSteps => exact (react_course maxSteps r).imp (fun _ _ h => ⟨h, fun hm => by cases hm⟩)
  | planExecute rounds =>
    exact (planExecute_course rounds fuel r).imp (fun _ _ h => ⟨h.1, fun _ => h.2⟩)

end AgentRun.Run
