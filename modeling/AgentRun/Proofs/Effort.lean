import AgentRun.Proofs.Accounting

/-!
# What a run takes

Whatever the model and the tools do, a run asks the model and takes up calls no more often than its
mode allows. `Tallied` is what the count of a run says about the calls that were made, `Taking` what
the stages of one decision after another still take up. The calls to the model are those of the
account of the run.
-/

namespace AgentRun

/-- Whether a plan has a task of a name that is settled. -/
def Plan.hasSettled (p : Plan) (taskId : String) : Bool :=
  (p.task? taskId).any fun t => t.status.isTerminal

/-- How many tasks of a plan were not settled in one that grew to it. -/
def Plan.workSince (p q : Plan) : Nat := q.tasks.countP fun t => !p.hasSettled t.taskId

theorem Plan.Distinct.hasSettled_eq {p : Plan} (h : p.Distinct) {t : PlanTask} (ht : t ∈ p.tasks) :
    p.hasSettled t.taskId = t.status.isTerminal := by
  unfold Plan.hasSettled
  rw [h.task?_eq ht]
  rfl

theorem Plan.hasSettled_of_notMem {p : Plan} {taskId : String}
    (h : taskId ∉ p.tasks.map PlanTask.taskId) : p.hasSettled taskId = false := by
  have hnone : p.task? taskId = none := by
    refine List.find?_eq_none.mpr fun t ht heq => h ?_
    exact List.mem_map.mpr ⟨t, ht, by simpa using heq⟩
  unfold Plan.hasSettled
  rw [hnone]
  rfl

/-- The tasks of different names that are left for a run are those that were open and those that
were added. -/
theorem Plan.GrowsTo.workSince_eq {p q : Plan} (h : p.GrowsTo q) (hq : q.Distinct) :
    p.workSince q + p.settledCount = q.tasks.length := by
  obtain ⟨added, hadded⟩ := h.tasks.names_prefix
  have hp : p.Distinct := h.distinct hq
  -- Only the names of the tasks matter, and those of the plan before come first.
  have hcount : p.workSince q =
      (p.tasks.map PlanTask.taskId ++ added).countP fun taskId => !p.hasSettled taskId := by
    rw [hadded, List.countP_map]
    rfl
  have hlength : q.tasks.length = p.tasks.length + added.length := by
    have hlengths := congrArg List.length hadded
    rw [List.length_append, List.length_map, List.length_map] at hlengths
    exact hlengths.symm
  have hopen : (p.tasks.map PlanTask.taskId).countP (fun taskId => !p.hasSettled taskId) =
      p.openCount := by
    rw [List.countP_map]
    refine List.countP_congr fun t ht => ?_
    simp [PlanTask.isOpen, hp.hasSettled_eq ht]
  have hnew : added.countP (fun taskId => !p.hasSettled taskId) = added.length := by
    refine List.countP_eq_length.mpr fun taskId ht => ?_
    have hnames : (p.tasks.map PlanTask.taskId ++ added).Nodup := hadded ▸ hq
    have hdisjoint := (List.nodup_append.mp hnames).2.2
    rw [Plan.hasSettled_of_notMem fun hmem => hdisjoint _ hmem _ ht rfl]
    rfl
  have hsum := p.openCount_add_settledCount
  rw [hcount, List.countP_append, hopen, hnew]
  omega

namespace Run

/-! ## Counting -/

/-- Requests that were made for calls: each call made at least one and not more than it may. -/
inductive AskedFor (most : Nat) : List (Nat × ModelRequest) → List ModelRequest → Prop
  | none : AskedFor most [] []
  | call {calls : List (Nat × ModelRequest)} {requests : List ModelRequest} {n time : Nat}
      {request : ModelRequest} (h : AskedFor most calls requests) (hpos : 0 < n)
      (hmost : n ≤ most) :
      AskedFor most (calls ++ [(time, request)]) (requests ++ List.replicate n request)

theorem AskedFor.length_le {most : Nat} {calls : List (Nat × ModelRequest)}
    {requests : List ModelRequest} (h : AskedFor most calls requests) :
    requests.length ≤ calls.length * most := by
  induction h with
  | none => exact Nat.zero_le _
  | call h hpos hmost ih =>
    rw [List.length_append, List.length_append, List.length_replicate, List.length_singleton,
      Nat.succ_mul]
    omega

/-- What the count of a run with limits says about the calls that it made since it started. -/
structure Tallied (limits : Budget) (time : Nat) (s : State) : Prop where
  budget : s.spending.budget = limits
  started : s.spending.started = time
  counted : s.spending.modelCalls = (callsOf s.trail).length
  limited : limits.model.maxCalls ≠ 0 → (callsOf s.trail).length ≤ limits.model.maxCalls
  asked : AskedFor limits.model.attempts (callsOf s.trail) (requestsOf s.trail)

section Tally

variable {env : Env} {limits : Budget} {time : Nat} {s s' : State} {m : Move} {c : Station}
  {halt : Halt} {wanted : Ask} {keep : List Call → List Call}

theorem Scope.lt_of_not_spent {scope : Scope} {used : Nat} (h : scope.isSpent used = false)
    (hmax : scope.maxCalls ≠ 0) : used < scope.maxCalls := by
  simpa [Scope.isSpent, hmax] using h

namespace Tallied

theorem uncounted (h : Tallied limits time s) (hu : Uncounted s s') :
    Tallied limits time s' where
  budget := (congrArg Spending.budget hu.spending).trans h.budget
  started := (congrArg Spending.started hu.spending).trans h.started
  counted := by rw [hu.spending, hu.calls, h.counted]
  limited := hu.calls ▸ h.limited
  asked := hu.calls ▸ hu.requests ▸ h.asked

theorem consulted (h : Tallied limits time s) (hc : Consulted env wanted keep s s') :
    Tallied limits time s' := by
  have hlength := length_calls hc
  refine ⟨?_, ?_, ?_, fun hmax => ?_, ?_⟩
  · rw [hc.spending]
    exact h.budget
  · rw [hc.spending]
    exact h.started
  · rw [hc.spending, hlength, ← h.counted]
  · have hless : s.spending.modelCalls < limits.model.maxCalls := by
      have hunspent : s.spending.budget.model.isSpent s.spending.modelCalls = false := hc.admitted
      rw [h.budget] at hunspent
      exact Scope.lt_of_not_spent hunspent hmax
    rw [h.counted] at hless
    omega
  · obtain ⟨n, hpos, hmost, hrequests⟩ := hc.requests
    rw [hc.calls, hrequests]
    exact .call h.asked hpos (h.budget ▸ hmost)

theorem moved (h : Tallied limits time s) (hm : Moved env s s' m c) :
    Tallied limits time s' := by
  rcases hm.counts with hu | ⟨wanted, keep, next, denied, -, hc⟩
  · exact h.uncounted hu
  · exact h.consulted hc

theorem stopped (h : Tallied limits time s) (hs : Stopped env s s' m halt) :
    Tallied limits time s' := by
  rcases hs.counts with hu | ⟨wanted, keep, next, denied, -, hc⟩
  · exact h.uncounted hu
  · exact h.consulted hc

end Tallied

end Tally

section Runs

variable {engine : Engine} {turn : UserTurn} {world : World} {fuel : Nat} {c : Station} {s : State}

theorem start_tallied :
    Tallied turn.agent.runSpec.budget world.now (engine.start turn world).2 := by
  have hstart : Stands (engine.start turn world).1 [] (startLedger engine turn world)
    (.start (world.minted + 2)) (engine.start turn world).2 := start_stands
  have hspending : (engine.start turn world).2.spending =
      .start turn.agent.runSpec.budget world.now := congrArg Ledger.spending hstart.ledger
  refine ⟨by rw [hspending]; rfl, by rw [hspending]; rfl, ?_, ?_, ?_⟩
  · rw [hspending, hstart.trail]
    rfl
  · rw [hstart.trail]
    exact fun _ => Nat.zero_le _
  · rw [hstart.trail]
    exact .none

theorem Visits.tallied (h : Visits engine turn world fuel c s) :
    Tallied turn.agent.runSpec.budget world.now s :=
  (visits_start engine turn world fuel).onwards
    (I := fun _ => Tallied turn.agent.runSpec.budget world.now) start_tallied
    (fun _ _ _ _ _ h hm => h.moved hm) h

theorem final_tallied (engine : Engine) (turn : UserTurn) (world : World) (fuel : Nat) :
    Tallied turn.agent.runSpec.budget world.now (engine.run turn world fuel).final := by
  have hafter : Tallied turn.agent.runSpec.budget world.now (afterStages engine turn world fuel) :=
    (visits_start engine turn world fuel).comesOut
      (I := fun _ => Tallied turn.agent.runSpec.budget world.now) start_tallied
      (fun _ _ _ _ _ h hm => h.moved hm) (fun _ h => h) (fun _ _ _ _ _ h _ hs => h.stopped hs)
  exact hafter.uncounted (final_uncounted engine turn world fuel).1

end Runs

/-! ## Calls that are taken up -/

/-- How many calls a run that decides may still take up. -/
def Taking (most : Nat) : Station → State → Prop
  | .deciding, s => (dispatched s.trail).length + 1 ≤ most
  | .steps left, s => (dispatched s.trail).length + left ≤ most
  | .summarizing, s => (dispatched s.trail).length ≤ most
  | .exhausted, s => (dispatched s.trail).length ≤ most
  | .done, s => (dispatched s.trail).length ≤ most
  | _, _ => False

section Taking

variable {env : Env} {rounds most n : Nat} {s s' : State} {m : Move} {c c' : Station}
  {halt : Halt} {wanted : Ask}

/-- A run that keeps so many calls of an answer takes up no more than those. -/
theorem Consulted.taken_le (h : Consulted env wanted (List.take n) s s') :
    (dispatched s'.trail).length ≤ (dispatched s.trail).length + n := by
  obtain ⟨turn, calls, hprefix, htaken⟩ := h.taken
  have hcalls : calls.length ≤ n :=
    Nat.le_trans hprefix.length_le (List.length_take_le n turn.calls)
  rw [htaken, List.length_append]
  omega

theorem taking_step (hd : Decides env rounds s c m) (h : Taking most c s)
    (hm : Moved env s s' m c') : Taking most c' s' := by
  cases hd with
  | decide =>
    have hfirst : (dispatched s.trail).length + 1 ≤ most := h
    rcases hm.consulted with ⟨-, rfl, rfl⟩ | ⟨hc, turn, rfl, -⟩
    · exact Nat.le_of_succ_le hfirst
    · have htaken := hc.taken_le
      have hmost : (dispatched s'.trail).length ≤ most := by omega
      exact Station.decided (P := fun c => Taking most c s') (fun _ => hmost) hmost
  | noStep =>
    obtain ⟨rfl, rfl⟩ := hm.go_eq
    exact h
  | lateStep hlate =>
    obtain ⟨rfl, rfl⟩ := hm.go_eq
    exact Nat.le_trans (Nat.le_add_right _ _) h
  | @step left hearly =>
    have hfirst : (dispatched s.trail).length + (left + 1) ≤ most := h
    rcases hm.consulted with ⟨-, rfl, rfl⟩ | ⟨hc, turn, rfl, -⟩
    · exact Nat.le_trans (Nat.le_add_right _ _) hfirst
    · have htaken := hc.taken_le
      have hleft : (dispatched s'.trail).length + left ≤ most := by omega
      exact Station.decided (P := fun c => Taking most c s')
        (fun _ => Nat.le_trans (Nat.le_add_right _ _) hleft) hleft
  | spent hspent =>
    obtain ⟨rfl, rfl⟩ := hm.go_eq
    exact h
  | summary hunspent =>
    rcases hm.consulted with ⟨-, rfl, rfl⟩ | ⟨hc, turn, rfl, -⟩
    · exact h
    · exact Nat.le_trans hc.taken_le h
  | apology =>
    obtain ⟨rfl, -, hu⟩ := hm.tell_eq
    have hbefore : (dispatched s.trail).length ≤ most := h
    rwa [← hu.taken] at hbefore
  | done =>
    obtain ⟨rfl, rfl⟩ := hm.go_eq
    exact h
  | _ => exact h.elim

theorem taking_stopped (hd : Decides env rounds s c m) (h : Taking most c s)
    (hs : Stopped env s s' m halt) : (dispatched s'.trail).length ≤ most := by
  cases hd with
  | decide => exact Nat.le_trans hs.consulted.taken_le h
  | @step left hearly =>
    have htaken := hs.consulted.taken_le
    have hfirst : (dispatched s.trail).length + (left + 1) ≤ most := h
    omega
  | summary hunspent => exact Nat.le_trans hs.consulted.taken_le h
  | apology =>
    cases hs with
    | untold htrail hledger hgone => exact htrail ▸ h
  | noStep => cases hs
  | lateStep hlate => cases hs
  | spent hspent => cases hs
  | done => cases hs
  | _ => exact h.elim

end Taking

/-! ## The effort of a run -/

/-- The calls to the model that a run makes beside those for tasks. -/
def Runner.freeCalls : Runner → Nat
  | .oneshot => 2
  | .react maxSteps => maxSteps + 1
  | .planExecute _ => 2

section Effort

variable {engine : Engine} {turn : UserTurn} {world : World} {fuel : Nat}

theorem start_plan : (engine.start turn world).2.plan = (startLedger engine turn world).plan :=
  congrArg Ledger.plan start_stands.ledger

theorem Runner.start_accounted {s : State} (runner : Runner)
    (h : (callsOf s.trail).length = 0) :
    Accounted runner.rounds s.plan.settledCount runner.freeCalls (runner.station fuel) s := by
  have hwithin (n : Nat) : Within runner.rounds s.plan.settledCount n n s := by
    unfold Within
    exact Nat.le_of_eq (by rw [h, Nat.zero_add])
  cases runner with
  | oneshot => exact hwithin 2
  | react maxSteps => exact hwithin (maxSteps + 1)
  | planExecute rounds => exact hwithin 2

/-- The calls to the model are paid for by the tasks that were not settled at the start. -/
theorem run_spends (engine : Engine) (turn : UserTurn) (world : World) (fuel : Nat) :
    (startLedger engine turn world).plan.GrowsTo (engine.run turn world fuel).final.plan ∧
      Spends (runnerOf engine turn).rounds (startLedger engine turn world).plan.settledCount
        (runnerOf engine turn).freeCalls 0 (engine.run turn world fuel).final := by
  let seed := (startLedger engine turn world).plan
  let J : State → Prop := fun s => seed.GrowsTo s.plan ∧
    Spends (runnerOf engine turn).rounds seed.settledCount (runnerOf engine turn).freeCalls 0 s
  have hafter : J (afterStages engine turn world fuel) := by
    refine (visits_start engine turn world fuel).comesOut
      (I := fun c s => seed.GrowsTo s.plan ∧ Accounted (runnerOf engine turn).rounds
        seed.settledCount (runnerOf engine turn).freeCalls c s)
      ⟨start_plan ▸ .refl _, ?_⟩ (fun c s c' s' _ h hm => ?_) (fun s h => ?_)
      (fun c s s' halt _ h _ hs => ?_)
    · have hcalls : (callsOf (engine.start turn world).2.trail).length = 0 := by
        rw [start_stands.trail]
        rfl
      rw [show seed = (engine.start turn world).2.plan from start_plan.symm]
      exact Runner.start_accounted _ hcalls
    · exact ⟨h.1.trans (moved_grows hm), accounted_step (decides ..) h.2 hm (moved_grows hm)⟩
    · exact ⟨h.1, accounted_spends h.2⟩
    · exact ⟨h.1.trans (stopped_grows hs), stopped_spends h.2 hs⟩
  obtain ⟨hu, hplan⟩ := final_uncounted engine turn world fuel
  unfold Spends
  rw [hplan, hu.calls]
  exact hafter

/-- A run that decides takes up no more calls than it may decide on. -/
theorem run_takes {most : Nat}
    (hstart : Taking most ((runnerOf engine turn).station fuel) (engine.start turn world).2) :
    (dispatched (engine.run turn world fuel).final.trail).length ≤ most := by
  rw [(final_uncounted engine turn world fuel).1.taken]
  exact (visits_start engine turn world fuel).comesOut
    (J := fun s => (dispatched s.trail).length ≤ most) hstart
    (fun c s c' s' _ h hm => taking_step (decides ..) h hm) (fun s h => h)
    (fun c s s' halt _ h _ hs => taking_stopped (decides ..) h hs)

theorem run_calls_le (hnames : (engine.run turn world fuel).final.plan.Distinct) :
    (callsOf (engine.run turn world fuel).final.journal).length ≤ (runnerOf engine turn).freeCalls +
      (runnerOf engine turn).rounds *
        (startLedger engine turn world).plan.workSince (engine.run turn world fuel).final.plan := by
  obtain ⟨hgrows, hspends⟩ := run_spends engine turn world fuel
  unfold Spends at hspends
  rw [← hgrows.workSince_eq hnames, Nat.mul_add, State.callsOf_trail] at hspends
  omega

/-- Without rounds there are no calls for tasks, whatever the names of the tasks. -/
theorem run_calls_le_free (hrounds : (runnerOf engine turn).rounds = 0) :
    (callsOf (engine.run turn world fuel).final.journal).length ≤
      (runnerOf engine turn).freeCalls := by
  have hspends := (run_spends engine turn world fuel).2
  unfold Spends at hspends
  rw [hrounds, State.callsOf_trail] at hspends
  omega

/-- What a run takes, in every mode and whatever the model and the tools do: the model calls that
are admitted, the calls that are taken up, and the requests that the model receives. -/
theorem run_effort_bounded (engine : Engine) (turn : UserTurn) (world : World) (fuel : Nat) :
    let seed := (startLedger engine turn world).plan
    let final := (engine.run turn world fuel).final
    let calls := (callsOf final.journal).length
    let taken := (dispatched final.journal).length
    (match runnerOf engine turn with
      | .oneshot => calls ≤ 2 ∧ taken ≤ 1
      | .react maxSteps => calls ≤ maxSteps + 1 ∧ taken ≤ maxSteps
      | .planExecute rounds => seed.GrowsTo final.plan ∧
          (final.plan.Distinct → calls ≤ 2 + rounds * seed.workSince final.plan)) ∧
      final.requests.length ≤ calls * turn.agent.runSpec.budget.model.attempts := by
  intro seed final calls taken
  have hnone : (dispatched (engine.start turn world).2.trail).length = 0 := by
    rw [start_stands.trail]
    rfl
  have htakes {most : Nat} (h : Taking most ((runnerOf engine turn).station fuel)
      (engine.start turn world).2) : taken ≤ most := by
    have hmost := run_takes h
    rwa [State.dispatched_trail] at hmost
  have hfree : (runnerOf engine turn).rounds = 0 → calls ≤ (runnerOf engine turn).freeCalls :=
    run_calls_le_free
  have hplan : final.plan.Distinct → calls ≤ (runnerOf engine turn).freeCalls +
      (runnerOf engine turn).rounds * seed.workSince final.plan := run_calls_le
  refine ⟨?_, ?_⟩
  · cases hrunner : runnerOf engine turn with
    | oneshot =>
      rw [hrunner] at htakes hfree
      exact ⟨hfree rfl, htakes (Nat.le_of_eq (by rw [hnone]))⟩
    | react maxSteps =>
      rw [hrunner] at htakes hfree
      exact ⟨hfree rfl, htakes (Nat.le_of_eq (by rw [hnone, Nat.zero_add]))⟩
    | planExecute rounds =>
      rw [hrunner] at hplan
      exact ⟨(run_spends engine turn world fuel).1, hplan⟩
  · have hasked := (final_tallied engine turn world fuel).asked.length_le
    rwa [State.requestsOf_trail, State.callsOf_trail] at hasked

end Effort

end Run

end AgentRun
