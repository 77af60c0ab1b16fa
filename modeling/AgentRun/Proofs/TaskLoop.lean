import AgentRun.Proofs.Accounting
import AgentRun.Proofs.Hanging

/-!
# The task loop

The plan may grow while it is worked off, as a task is worked on with calls that may add others. So
the loop has no bound that is known when it begins; it is bounded by the tasks that there are when
it ends. What it takes up it settles, and it goes on for ever only if tasks are added for ever or if
the model or a tool leaves it waiting for ever.
-/

namespace AgentRun.Run

/-- To look for the next task takes one step of fuel, for which a task is settled. While the task
that is worked on is open, one step is advanced. -/
def Fueled (full settled : Nat) : Station → State → Prop
  | .looking fuel, s => full + settled ≤ fuel + s.plan.settledCount ∨
      s.plan.hasOpen = true ∧ full + settled ≤ fuel + s.plan.settledCount + 1 ∧
        s.spending.isTimedOut s.now = true
  | .working task _ fuel, s => full + settled ≤ fuel + s.plan.settledCount + 1 ∧
      (isSettled s.plan task = false ∨ full + settled ≤ fuel + s.plan.settledCount)
  | _, _ => True

section Loop

variable {env : Env} {rounds full settled fuel left : Nat} {s s' : State} {c c' : Station}
  {plan : Plan} {task : PlanTask}

theorem unsettled_of_nextOpen? (hnames : plan.Distinct) (h : plan.nextOpen? = some task) :
    isSettled plan task = false := by
  have hopen : task.isOpen = true := List.find?_some h
  unfold isSettled
  rw [hnames.task?_eq (List.mem_of_find?_eq_some h)]
  simpa [PlanTask.isOpen] using hopen

/-- Every move of the task loop uses its fuel for tasks that it settles, as long as their names are
different. -/
theorem fueled_step {m : Move} (hd : Decides env rounds s c m) (hin : c.inTaskLoop = true)
    (hnames : s.plan.Distinct) (h : Fueled full settled c s) (hm : Moved env s s' m c')
    (hgrows : s.plan.GrowsTo s'.plan) : Fueled full settled c' s' := by
  have hle : s.plan.settledCount ≤ s'.plan.settledCount := hgrows.tasks.settled_le
  cases hd with
  | noFuel => cases hm
  | noTask hnone =>
    obtain ⟨rfl, rfl⟩ := hm.go_eq
    trivial
  | lateTask htask hlate =>
    obtain ⟨rfl, rfl⟩ := hm.go_eq
    trivial
  | task htask hearly =>
    obtain ⟨rfl, rfl⟩ := hm.go_eq
    rcases h with h | ⟨-, -, hlate⟩
    · exact ⟨by omega, Or.inl (unsettled_of_nextOpen? hnames htask)⟩
    · exact absurd hlate (by simp [hearly])
  | settled hsettled =>
    obtain ⟨rfl, rfl⟩ := hm.go_eq
    rcases h.2 with hopen | hpaid
    · exact absurd hsettled (by simp [hopen])
    · exact Or.inl hpaid
  | giveUp hopen hplan =>
    obtain ⟨rfl, hplan', -⟩ := hm.replan_eq
    have hlt : s.plan.settledCount < s'.plan.settledCount := by
      refine settledCount_lt hgrows hopen ?_
      rw [hplan']
      exact isSettled_setStatus? rfl hplan
    have hadvanced := h.1
    exact Or.inl (by omega)
  | lateRound hopen hlate =>
    obtain ⟨rfl, rfl⟩ := hm.go_eq
    exact Or.inr ⟨hasOpen_of_unsettled hopen, h.1, hlate⟩
  | @round task left fuel hopen hearly =>
    rcases hm.consulted with ⟨-, rfl, rfl⟩ | ⟨-, turn, rfl, -⟩
    · trivial
    · have hadvanced := h.1
      refine ⟨by omega, ?_⟩
      by_cases hsettled : isSettled s'.plan task = true
      · have hlt := settledCount_lt hgrows hopen hsettled
        exact Or.inr (by omega)
      · exact Or.inl (Bool.eq_false_iff.mpr hsettled)
  | drop hopen =>
    obtain ⟨rfl, -⟩ := hm.replan_eq
    trivial
  | noOpen hclosed =>
    obtain ⟨rfl, -⟩ := hm.go_eq
    trivial
  | _ => cases hin

/-- A run is only cut where it has to look for the next task without fuel. -/
theorem cut_looking (h : Stopped env s s' (c.move env rounds s) .cut) :
    c = .looking 0 ∧ s' = s := by
  have hd := decides env rounds s c
  generalize c.move env rounds s = m at h hd
  obtain ⟨rfl, hsame⟩ := h.cut_eq
  cases hd with
  | noFuel => exact ⟨rfl, hsame⟩

theorem cut_fuel (h : Fueled full settled c s)
    (hs : Stopped env s s' (c.move env rounds s) .cut) :
    full + settled ≤ s'.plan.tasks.length := by
  obtain ⟨rfl, rfl⟩ := cut_looking hs
  rcases h with h | ⟨hopen, h, -⟩
  · have hle := s'.plan.settledCount_le_length
    omega
  · have hlt := Plan.settledCount_lt_length hopen
    omega

/-- Wherever the task loop comes out, its calls are paid for by the tasks that there are then, and
so is its fuel if it is cut. Where it is stuck it waits for ever. -/
theorem execute_spends {r : Except Halt Unit} (hrest : Resting env s)
    (hrun : (execute env rounds fuel).run s = (r, s')) :
    s.plan.GrowsTo s'.plan ∧
      Spends rounds s.plan.settledCount ((callsOf s.trail).length + 1) 1 s' ∧
      (r = .error .cut → s'.plan.Distinct → fuel + s.plan.settledCount ≤ s'.plan.tasks.length) ∧
      (r = .error .stuck → WaitsForEver env s') := by
  let I : Station → State → Prop := fun c s₁ => s.plan.GrowsTo s₁.plan ∧
    Accounted rounds s.plan.settledCount ((callsOf s.trail).length + 1) c s₁ ∧
    (s₁.plan.Distinct → Fueled fuel s.plan.settledCount c s₁)
  have hstart : I (.looking fuel) s :=
    ⟨.refl _, Or.inl (Nat.le_refl _), fun _ => Or.inl (Nat.le_refl _)⟩
  have hstep : ∀ c s₁ c' s₂, c.inTaskLoop = true → Resting env s₁ → I c s₁ →
      Moved env s₁ s₂ (c.move env rounds s₁) c' → I c' s₂ := by
    intro c s₁ c' s₂ hin _ h hm
    obtain ⟨hgrows, haccount, hfuel⟩ := h
    have hmore := moved_grows hm
    refine ⟨hgrows.trans hmore, accounted_step (decides ..) haccount hm hmore, fun hnames => ?_⟩
    have hbefore := hmore.distinct hnames
    exact fueled_step (decides ..) hin hbefore (hfuel hbefore) hm hmore
  rcases passes_of_taskLoop (c := .looking fuel) rfl hrun with ⟨hpasses, rfl⟩ |
    ⟨c₁, s₁, halt, hpasses, hin, hadv, rfl⟩
  · obtain ⟨-, hgrows, haccount, -⟩ := passesIn_induction hrest hstart hstep hpasses
    exact ⟨hgrows, accounted_spends haccount, fun h => (by cases h), fun h => (by cases h)⟩
  · obtain ⟨hrest₁, hgrows, haccount, hfuel⟩ := passesIn_induction hrest hstart hstep hpasses
    have hstopped := advance_stopped hrest₁ hadv
    have hmore := stopped_grows hstopped
    refine ⟨hgrows.trans hmore, taskLoop_stopped_spends hin haccount hstopped, fun h hnames => ?_,
      fun h => advance_founded hrest₁ hadv (Except.error.inj h)⟩
    obtain rfl := Except.error.inj h
    exact cut_fuel (hfuel (hmore.distinct hnames)) hstopped

end Loop

/-! ## The task loop of a run -/

section Bound

variable {engine : Engine} {turn : UserTurn} {world : World} {fuel : Nat} {s s' : State}
  {r : Except Halt Unit}

/-- The model calls of the task loop of a run are bounded by the rounds of the tasks that are open
when it begins and of those that are added in it. It comes out unless as many tasks are added as it
is followed for, or it waits for ever, with no limit on the wait, for the model or a tool. -/
theorem execute_calls_bounded (hmark : Visits engine turn world fuel (.looking fuel) s)
    (hrun : (execute (engine.start turn world).1 engine.config.maxTaskRounds fuel).run s =
      (r, s')) :
    s.plan.GrowsTo s'.plan ∧
      (callsOf s'.journal).length ≤ (callsOf s.journal).length + engine.config.maxTaskRounds *
        (s.plan.openCount + (s'.plan.tasks.length - s.plan.tasks.length)) ∧
      (s'.plan.Distinct →
        s.plan.openCount + (s'.plan.tasks.length - s.plan.tasks.length) < fuel →
        r ≠ .error .cut) ∧
      (r = .error .stuck → WaitsForEver (engine.start turn world).1 s') := by
  obtain ⟨hgrows, hspends, hcut, hstuck⟩ := execute_spends hmark.resting hrun
  have hlength := hgrows.tasks.length_le
  have hcount := s.plan.openCount_add_settledCount
  have htasks : s.plan.openCount + (s'.plan.tasks.length - s.plan.tasks.length) +
      s.plan.settledCount = s'.plan.tasks.length := by omega
  refine ⟨hgrows, ?_, fun hnames hfuel hr => ?_, hstuck⟩
  · unfold Spends at hspends
    rw [← htasks, Nat.mul_add] at hspends
    rw [← State.callsOf_trail, ← State.callsOf_trail]
    omega
  · have hle := hcut hr hnames
    omega

end Bound

/-- An engine that works on each task once. -/
def onceEach (replies : List Reply) : Engine :=
  { rehearsal replies with config := { Config.default with maxTaskRounds := 1 } }

/-- A first turn with an open task in its plan. -/
def seededTurn : UserTurn :=
  { firstTurn .planExecute with plan := some ⟨"plan_1", [⟨"task_1", "Look it up", .init⟩]⟩ }

/-- The first answer adds a task to the one that is worked on. -/
def anotherTask : List Reply :=
  [Script.ofChunks (Script.calls [("c1", PlanTool.addTasks.name,
      .obj [("tasks", .arr [.str "Look again"])])]) .done,
    Script.ofChunks (Script.texts ["Nothing new"]) .done,
    Script.ofChunks (Script.texts ["Done"]) .done]

/-- A model that takes a request and never says a word. -/
def wordless : List Reply := [Script.stalled]

/-- An engine whose only tool never ends, and a model that calls it. -/
def endlessEcho : Engine :=
  { onceEach [Script.ofChunks (Script.calls [("c1", "echo", .obj [])]) .done] with
    bodies := ⟨fun _ i => Script.Behaviour.hangs.reply i⟩ }

/-- Where the task loop of the seeded turn begins. -/
def seededMarker (engine : Engine) : Station × State := reached engine seededTurn (.new 1) 3 3

/-- How it comes out. -/
def seededLoop (engine : Engine) : Except Halt Unit × State :=
  (execute (engine.start seededTurn (.new 1)).1 1 3).run (seededMarker engine).2

/-- The task loop of the seeded turn begins with names that are different and without limits on
model calls and on time. -/
def BeginsUnlimited (engine : Engine) : Prop :=
  Visits engine seededTurn (.new 1) 3 (.looking 3) (seededMarker engine).2 ∧
    (seededMarker engine).2.plan.Distinct ∧
    (seededMarker engine).2.spending.budget.model.maxCalls = 0 ∧
    (seededMarker engine).2.spending.budget.runTimeout? = none

/-- Two tasks of the seeded turn, of which one is added in the task loop, take a call each; and with
a model that never says a word the loop waits for ever. -/
theorem added_task_is_paid_for :
    Visits (onceEach anotherTask) seededTurn (.new 1) 3 (.looking 3)
        (seededMarker (onceEach anotherTask)).2 ∧
      (seededLoop (onceEach anotherTask)).2.plan.Distinct ∧
      (seededMarker (onceEach anotherTask)).2.plan.openCount = 1 ∧
      (seededLoop (onceEach anotherTask)).2.plan.tasks.length = 2 ∧
      (callsOf (seededLoop (onceEach anotherTask)).2.journal).length ≤
        (callsOf (seededMarker (onceEach anotherTask)).2.journal).length + 2 ∧
      (seededLoop (onceEach anotherTask)).1 ≠ .error .cut ∧
      (seededLoop (onceEach wordless)).1 = .error .stuck ∧
      WaitsForEver ((onceEach wordless).start seededTurn (.new 1)).1
        (seededLoop (onceEach wordless)).2 := by
  have hrun (engine : Engine) : seededLoop engine =
      ((seededLoop engine).1, (seededLoop engine).2) := (Prod.eta _).symm
  have hvisited : Visits (onceEach anotherTask) seededTurn (.new 1) 3 (.looking 3)
      (seededMarker (onceEach anotherTask)).2 := visits_reached (by decide +kernel)
  have hwordless : Visits (onceEach wordless) seededTurn (.new 1) 3 (.looking 3)
      (seededMarker (onceEach wordless)).2 := visits_reached (by decide +kernel)
  obtain ⟨-, hcalls, hends, -⟩ := execute_calls_bounded hvisited (hrun (onceEach anotherTask))
  obtain ⟨-, -, -, hwaits⟩ := execute_calls_bounded hwordless (hrun (onceEach wordless))
  have hnames : (seededLoop (onceEach anotherTask)).2.plan.Distinct := by decide +kernel
  have hopen : (seededMarker (onceEach anotherTask)).2.plan.openCount = 1 := by decide +kernel
  have hbefore : (seededMarker (onceEach anotherTask)).2.plan.tasks.length = 1 := by
    decide +kernel
  have hafter : (seededLoop (onceEach anotherTask)).2.plan.tasks.length = 2 := by decide +kernel
  have hrounds : (onceEach anotherTask).config.maxTaskRounds = 1 := rfl
  have hstuck : (seededLoop (onceEach wordless)).1 = .error .stuck := by decide +kernel
  rw [hopen, hbefore, hafter, hrounds] at hcalls
  rw [hopen, hbefore, hafter] at hends
  exact ⟨hvisited, hnames, hopen, hafter, hcalls, hends hnames (by decide), hstuck, hwaits hstuck⟩

/-- The rounds of the tasks that are open when the task loop begins do not bound its calls: with one
such task of one round it makes two. Nor does it always end, though no task is added: the model or
a tool may leave it waiting. -/
theorem open_tasks_do_not_bound_calls :
    (BeginsUnlimited (onceEach anotherTask) ∧ (seededLoop (onceEach anotherTask)).1 = .ok () ∧
      ¬ (callsOf (seededLoop (onceEach anotherTask)).2.journal).length ≤
        (callsOf (seededMarker (onceEach anotherTask)).2.journal).length +
          (onceEach anotherTask).config.maxTaskRounds *
            (seededMarker (onceEach anotherTask)).2.plan.openCount) ∧
    (BeginsUnlimited (onceEach wordless) ∧ (seededLoop (onceEach wordless)).1 = .error .stuck ∧
      (seededLoop (onceEach wordless)).2.plan = (seededMarker (onceEach wordless)).2.plan) ∧
    BeginsUnlimited endlessEcho ∧ (seededLoop endlessEcho).1 = .error .stuck ∧
      (seededLoop endlessEcho).2.plan = (seededMarker endlessEcho).2.plan := by
  have begins (engine : Engine) (hat : (seededMarker engine).1 = .looking 3) :
      Visits engine seededTurn (.new 1) 3 (.looking 3) (seededMarker engine).2 :=
    visits_reached hat
  refine ⟨⟨⟨begins _ ?_, ?_⟩, ?_⟩, ⟨⟨begins _ ?_, ?_⟩, ?_⟩, ⟨begins _ ?_, ?_⟩, ?_⟩ <;>
    decide +kernel

end AgentRun.Run
