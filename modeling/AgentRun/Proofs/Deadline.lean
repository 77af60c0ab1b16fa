import AgentRun.Proofs.Clock
import AgentRun.Proofs.Effort

/-!
# Running out of time

A run with a time limit looks at the clock before it asks the model for anything but the final
answer, so when its time is up it only asks for that. A run that works off a plan looks at the clock
in its task loop. Where it finds that its time is up it drops what is open, and nothing that it does
afterwards changes the plan again.
-/

namespace AgentRun.Run

/-! ## When calls begin -/

/-- All calls of the entries began before so much time had passed since a start. -/
def Early (start limit : Nat) (j : List Entry) : Prop :=
  ∀ call ∈ callsOf j, call.1 - start < limit

/-- All calls but the last are early, and the last one is unless it is for the final answer. -/
structure Punctual (env : Env) (start limit : Nat) (j : List Entry) : Prop where
  early : ∀ call ∈ (callsOf j).dropLast, call.1 - start < limit
  late : ∀ call ∈ callsOf j, limit ≤ call.1 - start →
    ∃ history, call.2 = requestFor env history (summaryAsk env.agent)

/-- Every call makes its first attempt at once. -/
def AtOnce (j : List Entry) : Prop :=
  ∀ before time request after, j = before ++ .modelCall time request :: after →
    ∃ rest, after = .attempt time request :: rest

section Calls

variable {env : Env} {start limit time most : Nat} {request : ModelRequest} {i j u v : List Entry}
  {s s' : State} {m : Move} {c : Station} {halt : Halt}

theorem Early.punctual (h : Early start limit j) : Punctual env start limit j where
  early := fun call hcall => h call (List.dropLast_subset _ hcall)
  late := fun call hcall hlate => absurd (h call hcall) (Nat.not_lt.mpr hlate)

theorem Early.snoc (h : Early start limit i) (hj : callsOf j = callsOf i ++ [(time, request)])
    (htime : time - start < limit) : Early start limit j := by
  intro call hcall
  rw [hj] at hcall
  rcases List.mem_append.mp hcall with hcall | hcall
  · exact h call hcall
  · obtain rfl := List.mem_singleton.mp hcall
    exact htime

theorem Early.summarized {history : List Message} (h : Early start limit i)
    (hj : callsOf j = callsOf i ++ [(time, requestFor env history (summaryAsk env.agent))]) :
    Punctual env start limit j := by
  refine ⟨fun call hcall => ?_, fun call hcall hlate => ?_⟩
  · rw [hj, List.dropLast_concat] at hcall
    exact h call hcall
  · rw [hj] at hcall
    rcases List.mem_append.mp hcall with hcall | hcall
    · exact absurd (h call hcall) (Nat.not_lt.mpr hlate)
    · obtain rfl := List.mem_singleton.mp hcall
      exact ⟨history, rfl⟩

theorem atOnce_of_noCalls (h : callsOf j = []) : AtOnce j := by
  rintro before time request after rfl
  simp [callsOf, Entry.modelCall?] at h

theorem AtOnce.append (hi : AtOnce i) (hj : AtOnce j) : AtOnce (i ++ j) := by
  intro before time request after heq
  rcases split_in_row heq with ⟨rest, hrest, rfl⟩ | ⟨u, -, hrest⟩
  · obtain ⟨more, rfl⟩ := hi before time request rest hrest
    exact ⟨more ++ j, rfl⟩
  · exact hj u time request after hrest

theorem Begun.atOnce (h : Begun time most request u) : AtOnce u := by
  obtain ⟨rest, rfl⟩ := h.first
  have hcalls := h.calls
  rintro before time' request' after heq
  cases before with
  | nil =>
    obtain ⟨hcall, rfl⟩ := List.cons.inj heq
    cases hcall
    exact ⟨rest, rfl⟩
  | cons e before =>
    -- There is only one call, and it comes first.
    obtain ⟨-, hrest⟩ := List.cons.inj heq
    have hone : callsOf (.attempt time request :: rest) = [] := (List.cons.inj hcalls).2
    exact absurd hone (by rw [hrest]; simp [callsOf, Entry.modelCall?])

theorem AtOnce.moved (h : AtOnce s.trail) (hm : Moved env s s' m c) : AtOnce s'.trail := by
  cases hm with
  | go hsame => exact hsame ▸ h
  | denied hspent hsame => exact hsame ▸ h
  | answered hadmitted hbegun hu hv htrail =>
    rw [htrail]
    exact (h.append hbegun.atOnce).append (atOnce_of_noCalls (callsOf_ofCall hv.served.1.ofCall))
  | marked htrail hledger => exact htrail ▸ h.append (atOnce_of_noCalls rfl)
  | replanned htrail hledger => exact htrail ▸ h.append (atOnce_of_noCalls rfl)
  | told htrail hledger => exact htrail ▸ h.append (atOnce_of_noCalls rfl)

theorem AtOnce.stopped (h : AtOnce s.trail) (hs : Stopped env s s' m halt) : AtOnce s'.trail := by
  cases hs with
  | halted hsame => exact hsame ▸ h
  | broke hadmitted hbegun hu htrail hledger hhalt =>
    rw [htrail]
    exact h.append hbegun.atOnce
  | unanswered hadmitted hbegun hu hv htrail hhalt =>
    rw [htrail]
    exact (h.append hbegun.atOnce).append (atOnce_of_noCalls (callsOf_ofCall hv.served.ofCall))
  | unmarked htrail hledger hgone => exact htrail ▸ h
  | unshown htrail hledger hgone => exact htrail ▸ h
  | untold htrail hledger hgone => exact htrail ▸ h

end Calls

/-- What is known of the calls where a run comes that does not decide only once. -/
def Timed (env : Env) (start limit : Nat) : Station → State → Prop
  | .deciding, _ => False
  | .done, s => Punctual env start limit s.trail
  | _, s => Early start limit s.trail

section Timing

variable {env : Env} {start limit rounds : Nat} {s s' : State} {m : Move} {c c' denied : Station}
  {halt : Halt} {wanted : Ask} {keep : List Call → List Call} {next : List Call → Station}

theorem Timed.early (h : Timed env start limit c s) (hc : c ≠ .done) :
    Early start limit s.trail := by
  cases c with
  | done => exact absurd rfl hc
  | deciding => exact h.elim
  | _ => exact h

theorem Early.timed (h : Early start limit s.trail) (hc : c ≠ .deciding) :
    Timed env start limit c s := by
  cases c with
  | deciding => exact absurd rfl hc
  | done => exact h.punctual
  | _ => exact h

/-- Before a run asks for anything but the final answer it looks at the clock. -/
theorem asked_timed (hclock : s.spending.isTimedOut s.now = decide (limit ≤ s.now - start))
    (hd : Decides env rounds s c (.ask wanted keep next denied)) (h : Timed env start limit c s)
    (hc : Consulted env wanted keep s s') :
    c ≠ .summarizing ∧ Early start limit s'.trail ∨
      c = .summarizing ∧ Punctual env start limit s'.trail := by
  have inTime (hearly : s.spending.isTimedOut s.now = false) : s.now - start < limit := by
    rw [hclock] at hearly
    exact Nat.not_le.mp (of_decide_eq_false hearly)
  cases hd with
  | decide => exact h.elim
  | step hearly => exact Or.inl ⟨nofun, Early.snoc h hc.calls (inTime hearly)⟩
  | plan hclosed hearly => exact Or.inl ⟨nofun, Early.snoc h hc.calls (inTime hearly)⟩
  | round hopen hearly => exact Or.inl ⟨nofun, Early.snoc h hc.calls (inTime hearly)⟩
  | summary hunspent => exact Or.inr ⟨rfl, Early.summarized h hc.calls⟩

/-- Only where a run begins does it decide once. -/
theorem decides_leads (hd : Decides env rounds s c m) : m.LeadsTo (· ≠ .deciding) := by
  have decided {d : Station} (hd : d ≠ .deciding) (calls : List Call) :
      (if calls.isEmpty then Station.done else d) ≠ .deciding :=
    Station.decided (P := fun d => d ≠ .deciding) (fun _ => nofun) hd
  cases hd with
  | decide => exact ⟨decided nofun, nofun⟩
  | step hearly => exact ⟨decided nofun, nofun⟩
  | plan hclosed hearly => exact ⟨fun _ => nofun, nofun⟩
  | round hopen hearly => exact ⟨fun _ => nofun, nofun⟩
  | summary hunspent => exact ⟨fun _ => nofun, nofun⟩
  | noFuel => trivial
  | _ => exact nofun

theorem timed_step (hclock : s.spending.isTimedOut s.now = decide (limit ≤ s.now - start))
    (hd : Decides env rounds s c m) (h : Timed env start limit c s) (hm : Moved env s s' m c') :
    Timed env start limit c' s' := by
  have hc' : c' ≠ .deciding := hm.leads (decides_leads hd)
  rcases hm.counts with hu | ⟨wanted, keep, next, denied, rfl, hc⟩
  · by_cases hdone : c = .done
    · subst hdone
      cases hd with
      | done =>
        obtain ⟨rfl, rfl⟩ := hm.go_eq
        exact h
    · have hearly : Early start limit s'.trail := by
        unfold Early
        rw [hu.calls]
        exact h.early hdone
      exact hearly.timed hc'
  · rcases asked_timed hclock hd h hc with ⟨-, hearly⟩ | ⟨rfl, hpunctual⟩
    · exact hearly.timed hc'
    · cases hd with
      | summary hunspent =>
        rcases hm.consulted with ⟨hspent, -, -⟩ | ⟨-, turn, rfl, -⟩
        · exact absurd hspent (by simp [hunspent])
        · exact hpunctual

theorem timed_stopped (hclock : s.spending.isTimedOut s.now = decide (limit ≤ s.now - start))
    (hd : Decides env rounds s c m) (h : Timed env start limit c s) (hs : Stopped env s s' m halt) :
    Punctual env start limit s'.trail := by
  rcases hs.counts with hu | ⟨wanted, keep, next, denied, rfl, hc⟩
  · have hdone : c ≠ .done := by
      rintro rfl
      cases hd with
      | done => cases hs
    have hearly : Early start limit s'.trail := by
      unfold Early
      rw [hu.calls]
      exact h.early hdone
    exact hearly.punctual
  · rcases asked_timed hclock hd h hc with ⟨-, hearly⟩ | ⟨-, hpunctual⟩
    · exact hearly.punctual
    · exact hpunctual

end Timing

section Runs

variable {engine : Engine} {turn : UserTurn} {world : World} {fuel limit : Nat} {c : Station}
  {s : State}

/-- Wherever a run comes, its time is up when so much has passed since its start. -/
theorem Visits.isTimedOut_eq (h : Visits engine turn world fuel c s)
    (hlimit : turn.agent.runSpec.budget.runTimeout? = some limit) :
    s.spending.isTimedOut s.now = decide (limit ≤ s.now - world.now) := by
  have htallied := h.tallied
  unfold Spending.isTimedOut
  rw [htallied.budget, htallied.started, hlimit]
  rfl

theorem Runner.start_timed (hmode : turn.agent.mode ≠ .oneshot) :
    Timed (engine.start turn world).1 world.now limit ((runnerOf engine turn).station fuel)
      (engine.start turn world).2 := by
  have hearly : Early world.now limit (engine.start turn world).2.trail := by
    rw [start_stands.trail]
    exact fun _ h => absurd h List.not_mem_nil
  refine hearly.timed fun hstation => hmode ?_
  have hrunner : (runnerOf engine turn).mode = turn.agent.mode := mode_ofAgent _ _
  cases hof : runnerOf engine turn with
  | oneshot => rw [← hrunner, hof]; rfl
  | react maxSteps => rw [hof] at hstation; cases hstation
  | planExecute rounds => rw [hof] at hstation; cases hstation

theorem afterStages_punctual (fuel : Nat)
    (hlimit : turn.agent.runSpec.budget.runTimeout? = some limit)
    (hmode : turn.agent.mode ≠ .oneshot) :
    Punctual (engine.start turn world).1 world.now limit
        (afterStages engine turn world fuel).trail ∧
      AtOnce (afterStages engine turn world fuel).trail := by
  refine (visits_start engine turn world fuel).comesOut
    (I := fun c s => Timed (engine.start turn world).1 world.now limit c s ∧ AtOnce s.trail)
    (J := fun s => Punctual (engine.start turn world).1 world.now limit s.trail ∧ AtOnce s.trail)
    ⟨Runner.start_timed hmode, ?_⟩ (fun c s c' s' hvisits h hm => ?_) (fun s h => h)
    (fun c s s' halt hvisits h _ hs => ?_)
  · rw [start_stands.trail]
    exact atOnce_of_noCalls rfl
  · exact ⟨timed_step (hvisits.isTimedOut_eq hlimit) (decides ..) h.1 hm, h.2.moved hm⟩
  · exact ⟨timed_stopped (hvisits.isTimedOut_eq hlimit) (decides ..) h.1 hs, h.2.stopped hs⟩

end Runs

/-! ## Winding up a plan -/

/-- What is known of the plan of a run whose time was up with a plan before it. -/
def Winding (plan : Plan) : Station → State → Prop
  | .looking _, s => s.plan = plan ∧ s.spending.isTimedOut s.now = true
  | .working task left _, s => s.plan = plan ∧ s.spending.isTimedOut s.now = true ∧
      (isSettled plan task = true ∨ left ≠ 0)
  | .dropping, s => s.plan = plan
  | .closing, s => s.plan = plan.cancelOpen
  | .summarizing, s => s.plan = plan.cancelOpen
  | .exhausted, s => s.plan = plan.cancelOpen
  | .done, s => s.plan = plan.cancelOpen
  | _, _ => False

theorem Plan.cancelOpen_of_closed {plan : Plan} (h : plan.hasOpen = false) :
    plan.cancelOpen = plan := by
  have hkept : ∀ t ∈ plan.tasks, Plan.cancel t = t := by
    intro t ht
    have hclosed : t.isOpen = false := by
      simpa using List.any_eq_false.mp h t ht
    simp [Plan.cancel, hclosed]
  unfold Plan.cancelOpen
  rw [List.map_congr_left hkept, List.map_id']

section Winding

variable {env : Env} {rounds : Nat} {plan : Plan} {s s' : State} {m : Move} {c c' denied : Station}
  {halt : Halt} {wanted : Ask} {next : List Call → Station}

/-- The final answer changes no plan. -/
theorem Moved.plan_eq (h : Moved env s s' (.ask wanted (List.take 0) next denied) c) :
    s'.plan = s.plan := by
  cases h with
  | denied _ hsame => exact hsame ▸ rfl
  | answered _ _ _ hv _ =>
    rw [List.take_zero] at hv
    generalize hl : s'.ledger = l at hv
    cases hv with
    | nil => exact congrArg Ledger.plan hl

theorem Stopped.plan_eq (h : Stopped env s s' (.ask wanted (List.take 0) next denied) halt) :
    s'.plan = s.plan := by
  cases h with
  | broke _ _ _ _ hledger _ => exact congrArg Ledger.plan hledger
  | unanswered _ _ _ hv _ _ =>
    rw [List.take_zero] at hv
    cases hv

theorem winding_step (hd : Decides env rounds s c m) (h : Winding plan c s)
    (hm : Moved env s s' m c') : Winding plan c' s' := by
  cases hd with
  | noFuel => cases hm
  | noTask hnone =>
    obtain ⟨rfl, rfl⟩ := hm.go_eq
    obtain ⟨rfl, -⟩ := h
    exact (Plan.cancelOpen_of_closed (hasOpen_of_noTask hnone)).symm
  | lateTask htask hlate =>
    obtain ⟨rfl, rfl⟩ := hm.go_eq
    exact h.1
  | task htask hearly => exact absurd h.2 (by simp [hearly])
  | settled hsettled =>
    obtain ⟨rfl, rfl⟩ := hm.go_eq
    exact ⟨h.1, h.2.1⟩
  | giveUp hopen hplan =>
    obtain ⟨rfl, -, hleft⟩ := h
    exact absurd hleft (by simp [hopen])
  | lateRound hopen hlate =>
    obtain ⟨rfl, rfl⟩ := hm.go_eq
    exact ⟨h.1, hlate⟩
  | round hopen hearly => exact absurd h.2.1 (by simp [hearly])
  | drop hopen =>
    obtain ⟨rfl, hplan, -⟩ := hm.replan_eq
    obtain rfl : s.plan = plan := h
    exact hplan
  | noOpen hclosed =>
    obtain ⟨rfl, rfl⟩ := hm.go_eq
    obtain rfl : s'.plan = plan := h
    exact (Plan.cancelOpen_of_closed hclosed).symm
  | close =>
    obtain ⟨rfl, hplan, -⟩ := hm.mark_eq
    exact hplan.trans h
  | spent hspent =>
    obtain ⟨rfl, rfl⟩ := hm.go_eq
    exact h
  | summary hunspent =>
    have hplan : s'.plan = plan.cancelOpen := hm.plan_eq.trans h
    rcases hm.consulted with ⟨-, -, rfl⟩ | ⟨-, turn, rfl, -⟩
    · exact hplan
    · exact hplan
  | apology =>
    obtain ⟨rfl, hplan, -⟩ := hm.tell_eq
    exact hplan.trans h
  | done =>
    obtain ⟨rfl, rfl⟩ := hm.go_eq
    exact h
  | _ => exact h.elim

theorem winding_stopped (hd : Decides env rounds s c m) (h : Winding plan c s)
    (hs : Stopped env s s' m halt) (hcut : halt ≠ .cut) : s'.plan = plan.cancelOpen := by
  cases hd with
  | noFuel =>
    cases hs with
    | halted _ => exact absurd rfl hcut
  | giveUp hopen hplan =>
    obtain ⟨rfl, -, hleft⟩ := h
    exact absurd hleft (by simp [hopen])
  | round hopen hearly => exact absurd h.2.1 (by simp [hearly])
  | drop hopen =>
    obtain rfl : s.plan = plan := h
    cases hs with
    | unshown htrail hledger hgone => exact congrArg Ledger.plan hledger
  | close =>
    cases hs with
    | unmarked htrail hledger hgone => exact (congrArg Ledger.plan hledger).trans h
  | summary hunspent => exact hs.plan_eq.trans h
  | apology =>
    cases hs with
    | untold htrail hledger hgone => exact (congrArg Ledger.plan hledger).trans h
  | decide | step | begin | plan | execute => exact h.elim
  | _ => cases hs

end Winding

section Plans

variable {engine : Engine} {turn : UserTurn} {world : World} {fuel limit left : Nat}
  {c c' : Station} {s s' : State} {task : PlanTask}

/-- A run that has begun to wind up its plan drops all of it that is open. -/
theorem Visits.wound_up {plan : Plan} (h : Visits engine turn world fuel c s)
    (hw : Winding plan c s) (hcut : (engine.run turn world fuel).stages ≠ .error .cut) :
    (engine.run turn world fuel).final.plan = plan.cancelOpen := by
  rw [(final_uncounted engine turn world fuel).2]
  refine h.comesOut (J := fun s => s.plan = plan.cancelOpen) hw
    (fun c s c' s' _ h hm => winding_step (decides ..) h hm) (fun s h => h)
    (fun c s s' halt _ h hhalt hs => ?_)
  exact winding_stopped (decides ..) h hs fun hh => hcut (hh ▸ hhalt)

/-- A task whose rounds are used up is given up before the rest is dropped, which it is unless the
client is gone when that is shown. -/
theorem Visits.given_up (h : Visits engine turn world fuel (.working task 0 left) s)
    (hlate : s.spending.isTimedOut s.now = true) (hopen : isSettled s.plan task = false)
    (hlimit : turn.agent.runSpec.budget.runTimeout? = some limit)
    (hcut : (engine.run turn world fuel).stages ≠ .error .cut) :
    ∃ plan, s.plan.setStatus? task.taskId .failed = .ok plan ∧
      ((engine.run turn world fuel).final.plan = plan.cancelOpen ∨
        (engine.run turn world fuel).stages = .error (.failed .consumerGone) ∧
          (engine.run turn world fuel).final.plan = plan) := by
  obtain ⟨plan, hplan⟩ := setStatus?_of_open hopen .failed
  refine ⟨plan, hplan, ?_⟩
  have hmove : (Station.working task 0 left).move (engine.start turn world).1
      (runnerOf engine turn).rounds s = .replan plan (.looking left) := by
    simp [Station.move, hopen, hplan]
  rcases hadv : (advance (engine.start turn world).1 (runnerOf engine turn).rounds
    (.working task 0 left)).run s with ⟨halt | c', s'⟩
  · obtain ⟨hstages, hafter⟩ := h.halted hadv
    have hstopped := advance_stopped h.resting hadv
    rw [hmove] at hstopped
    cases hstopped with
    | unshown htrail hledger hgone =>
      rw [(final_uncounted engine turn world fuel).2, hafter, hstages, hgone.1]
      exact Or.inr ⟨rfl, congrArg Ledger.plan hledger⟩
  · obtain ⟨-, hmoved⟩ := advances_moved h.resting hadv
    rw [hmove] at hmoved
    obtain ⟨rfl, hplan', -⟩ := hmoved.replan_eq
    have hpasses : Passes (engine.start turn world).1 (runnerOf engine turn).rounds
        (.working task 0 left, s) (.looking left, s') := .single hadv
    have hvisits : Visits engine turn world fuel (.looking left) s' := h.trans hpasses
    have hlater := h.later hpasses
    rw [h.isTimedOut_eq hlimit] at hlate
    have hlate' : s'.spending.isTimedOut s'.now = true := by
      rw [hvisits.isTimedOut_eq hlimit]
      have hpast := of_decide_eq_true hlate
      exact decide_eq_true (by omega)
    exact Or.inl (hvisits.wound_up ⟨hplan', hlate'⟩ hcut)

/-- A run with a time limit, other than one that decides only once, begins no call to the model when
its time is up but that for the final answer, which is the last one. Wherever its time is up, and
its task loop then comes to look at the clock or for the rounds of a task, what is open by then is
dropped in the end, but for a task that has just used up its rounds: this is given up, and the rest
is dropped unless the client is gone when that is shown. -/
theorem deadline_is_kept (engine : Engine) (turn : UserTurn) (world : World) (fuel : Nat)
    (hlimit : turn.agent.runSpec.budget.runTimeout? = some limit)
    (hmode : turn.agent.mode ≠ .oneshot) :
    let env := (engine.start turn world).1
    let o := engine.run turn world fuel
    AtOnce o.final.trail ∧
    (∀ call ∈ (callsOf o.final.journal).dropLast, call.1 - world.now < limit) ∧
    (∀ call ∈ callsOf o.final.journal, limit ≤ call.1 - world.now →
      ∃ history, call.2 = requestFor env history (summaryAsk env.agent)) ∧
    (∀ c s c' s', Visits engine turn world fuel c s → limit ≤ s.now - world.now →
      Passes env (runnerOf engine turn).rounds (c, s) (c', s') → o.stages ≠ .error .cut →
      (∀ left, c' = .looking left → o.final.plan = s'.plan.cancelOpen) ∧
      ∀ task rounds left, c' = .working task rounds left →
        (isSettled s'.plan task = true ∨ rounds ≠ 0 → o.final.plan = s'.plan.cancelOpen) ∧
        (rounds = 0 ∧ isSettled s'.plan task = false →
          ∃ plan, s'.plan.setStatus? task.taskId .failed = .ok plan ∧
            (o.final.plan = plan.cancelOpen ∨
              o.stages = .error (.failed .consumerGone) ∧ o.final.plan = plan))) := by
  intro env o
  obtain ⟨⟨hearly, hlate⟩, honce⟩ := afterStages_punctual fuel hlimit hmode
  obtain ⟨es, texts, htrail, -⟩ := final_eq engine turn world fuel
  have hcalls := (final_uncounted engine turn world fuel).1.calls
  rw [← hcalls] at hearly hlate
  refine ⟨?_, fun call hcall => ?_, fun call hcall => ?_,
    fun c s c' s' hvisits hpast hpasses hcut => ?_⟩
  · rw [htrail]
    exact honce.append (atOnce_of_noCalls callsOf_map_event)
  · rw [← State.callsOf_trail] at hcall
    exact hearly call hcall
  · rw [← State.callsOf_trail] at hcall
    exact hlate call hcall
  · have hvisits' : Visits engine turn world fuel c' s' := hvisits.trans hpasses
    have hlater := hvisits.later hpasses
    have hlate' : s'.spending.isTimedOut s'.now = true := by
      rw [hvisits'.isTimedOut_eq hlimit]
      exact decide_eq_true (by omega)
    refine ⟨?_, ?_⟩
    · rintro left rfl
      exact hvisits'.wound_up ⟨rfl, hlate'⟩ hcut
    · rintro task rounds left rfl
      refine ⟨fun hgoing => ?_, fun ⟨hspent, hopen⟩ => ?_⟩
      · exact hvisits'.wound_up ⟨rfl, hlate', hgoing⟩ hcut
      · subst hspent
        exact hvisits'.given_up hlate' hopen hlimit hcut

end Plans

/-- Two tasks for a run of fifty milliseconds. -/
def twoTasks : UserTurn :=
  limited { Budget.unlimited with runTimeoutMs := 50 }
    { firstTurn .planExecute with plan := some ⟨"plan_1",
      [⟨"task_1", "Look it up", .init⟩, ⟨"task_2", "Write it down", .init⟩]⟩ }

/-- An engine that works on each task once, with a model that is slow to begin with. -/
def slowly : Engine :=
  { rehearsal [Script.delayed 100 (Script.ofChunks (Script.texts ["Not yet"]) .done),
      Script.ofChunks (Script.texts ["Out of time"]) .done]
    with config := { Config.default with maxTaskRounds := 1 } }

/-- Where the first task of the run has used up its round. -/
def slowCheck : Station × State := reached slowly twoTasks (.new 1) 3 5

theorem slowCheck_visited : Visits slowly twoTasks (.new 1) 3
    (.working ⟨"task_1", "Look it up", .init⟩ 0 2) slowCheck.2 :=
  visits_reached (by decide +kernel)

/-- In a run whose time is up after the first round of its first task this task is given up, and the
other is dropped. -/
theorem slow_run_is_wound_up :
    slowCheck.2.now = 100 ∧
      (∀ call ∈ (callsOf (slowly.run twoTasks (.new 1) 3).final.journal).dropLast,
        call.1 - (World.new 1).now < 50) ∧
      (slowly.run twoTasks (.new 1) 3).final.plan = ⟨"plan_1",
        [⟨"task_1", "Look it up", .failed⟩, ⟨"task_2", "Write it down", .canceled⟩]⟩ := by
  have hlimit : twoTasks.agent.runSpec.budget.runTimeout? = some 50 := by decide
  have hmode : twoTasks.agent.mode ≠ .oneshot := by decide
  have hnow : slowCheck.2.now = 100 := by decide +kernel
  have hlate : 50 ≤ slowCheck.2.now - (World.new 1).now := by
    rw [hnow]
    exact Nat.le_add_right 50 50
  have hstages : (slowly.run twoTasks (.new 1) 3).stages = .ok () := by decide +kernel
  have hcut : (slowly.run twoTasks (.new 1) 3).stages ≠ .error .cut := by
    rw [hstages]
    exact nofun
  have hopen : isSettled slowCheck.2.plan ⟨"task_1", "Look it up", .init⟩ = false := by
    decide +kernel
  have hfailed : slowCheck.2.plan.setStatus? "task_1" .failed = .ok ⟨"plan_1",
      [⟨"task_1", "Look it up", .failed⟩, ⟨"task_2", "Write it down", .init⟩]⟩ := by decide +kernel
  obtain ⟨-, hearly, -, hplan⟩ := deadline_is_kept slowly twoTasks (.new 1) 3 hlimit hmode
  have hworking := (hplan _ _ _ _ slowCheck_visited hlate .refl hcut).2 _ _ _ rfl
  obtain ⟨plan, hset, hdropped | ⟨hgone, -⟩⟩ := hworking.2 ⟨rfl, hopen⟩
  · obtain rfl := Except.ok.inj (hfailed.symm.trans hset)
    refine ⟨hnow, hearly, ?_⟩
    rw [hdropped]
    rfl
  · rw [hstages] at hgone
    cases hgone

end AgentRun.Run
