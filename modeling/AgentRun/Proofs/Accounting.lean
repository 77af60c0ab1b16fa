import AgentRun.Proofs.Moves

/-!
# The account of the model calls

A call that works on a task is charged to the task. Each task has the same number of rounds, and
what is left of them is gone when the task is settled, since a task that is settled stays so and is
not worked on again. So the calls of a run are paid for by the tasks that it settled (`Within`), but
for those of the task that it works on. `Accounted` says this for every station, with the calls that
may still follow the task loop, and every move keeps to it.
-/

namespace AgentRun.Run

/-- The calls of a run and `n` more are paid for by the tasks that were settled since there were
`settled` of them, and by `base` calls that are free. -/
def Within (rounds settled base n : Nat) (s : State) : Prop :=
  (callsOf s.trail).length + n + rounds * settled ≤ base + rounds * s.plan.settledCount

/-- The account at a station. While a task is worked on its rounds are advanced; they are paid back
when it is settled, if not by the model then by the run. -/
def Accounted (rounds settled base : Nat) : Station → State → Prop
  | .deciding, s => Within rounds settled base 2 s
  | .steps left, s => Within rounds settled base (left + 1) s
  | .opening _, s => Within rounds settled base 2 s
  | .planning _, s => Within rounds settled base 2 s
  | .executing _, s => Within rounds settled base 1 s
  | .looking _, s => Within rounds settled base 1 s ∨
      s.spending.isTimedOut s.now = true ∧ s.plan.hasOpen = true ∧
        Within rounds settled (base + rounds) 1 s
  | .working task left _, s => Within rounds settled (base + rounds) (left + 1) s ∧
      (isSettled s.plan task = false ∨ Within rounds settled base 1 s)
  | .dropping, s => Within rounds settled base 1 s ∨
      s.plan.hasOpen = true ∧ Within rounds settled (base + rounds) 1 s
  | .closing, s => Within rounds settled base 1 s
  | .summarizing, s => Within rounds settled base 1 s
  | .exhausted, s => Within rounds settled base 0 s
  | .done, s => Within rounds settled base 0 s

/-! ## Tasks that are worked on -/

section Tasks

variable {p q : Plan} {task : PlanTask}

theorem task?_of_unsettled (h : isSettled p task = false) :
    ∃ t, p.task? task.taskId = some t ∧ t.status.isTerminal = false := by
  unfold isSettled at h
  cases htask : p.task? task.taskId with
  | none => simp [htask] at h
  | some t => exact ⟨t, rfl, by simpa [htask] using h⟩

theorem hasOpen_of_unsettled (h : isSettled p task = false) : p.hasOpen = true := by
  obtain ⟨t, ht, hopen⟩ := task?_of_unsettled h
  exact List.any_eq_true.mpr ⟨t, List.mem_of_find?_eq_some ht, by simp [PlanTask.isOpen, hopen]⟩

theorem hasOpen_of_noTask (h : p.nextOpen? = none) : p.hasOpen = false := by
  simpa [Plan.hasOpen, Plan.nextOpen?] using h

/-- When the task that is worked on is settled, there is one more that is. -/
theorem settledCount_lt (hgrows : p.GrowsTo q) (hp : isSettled p task = false)
    (hq : isSettled q task = true) : p.settledCount < q.settledCount := by
  obtain ⟨t, ht, hopen⟩ := task?_of_unsettled hp
  obtain ⟨u, hu, hlt⟩ := hgrows.tasks.settles ht hopen
  refine hlt ?_
  have htask : q.task? task.taskId = some u := hu
  simpa [isSettled, htask] using hq

theorem find?_mark {taskId : String} {status : TaskStatus} {ts : List PlanTask} :
    (Plan.mark taskId status ts).find? (fun t => t.taskId == taskId) =
      (ts.find? fun t => t.taskId == taskId).map fun t => { t with status := status } := by
  induction ts with
  | nil => rfl
  | cons t ts ih =>
    unfold Plan.mark
    by_cases ht : t.taskId = taskId
    · simp [ht]
    · simpa [ht] using ih

theorem isSettled_setStatus? {status : TaskStatus} (hstatus : status.isTerminal = true)
    (h : p.setStatus? task.taskId status = .ok q) : isSettled q task = true := by
  unfold Plan.setStatus? at h
  cases htask : p.task? task.taskId with
  | none => simp [htask] at h
  | some t =>
    simp only [htask] at h
    split at h
    · split at h
      · obtain rfl := Except.ok.inj h
        simpa [isSettled, htask] using ‹t.status.isTerminal = true›
      · cases h
    · obtain rfl := Except.ok.inj h
      have hmarked : (Plan.mark task.taskId status p.tasks).find?
          (fun t => t.taskId == task.taskId) = some { t with status := status } := by
        rw [find?_mark, show p.tasks.find? _ = some t from htask]
        rfl
      simp [isSettled, Plan.task?, hmarked, hstatus]

end Tasks

/-! ## Calls -/

section Account

variable {env : Env} {rounds settled base n m : Nat} {s s' : State} {c c' : Station}
  {wanted : Ask} {keep : List Call → List Call}

theorem length_calls (hc : Consulted env wanted keep s s') :
    (callsOf s'.trail).length = (callsOf s.trail).length + 1 := by
  rw [hc.calls, List.length_append, List.length_singleton]

namespace Within

theorem weaken (h : Within rounds settled base n s) (hm : m ≤ n) :
    Within rounds settled base m s := by
  unfold Within at h ⊢
  omega

/-- Rounds may be advanced. -/
theorem advanced (h : Within rounds settled base n s) :
    Within rounds settled (base + rounds) (n + rounds) s := by
  unfold Within at h ⊢
  omega

theorem uncounted (h : Within rounds settled base n s) (hu : Uncounted s s')
    (hgrows : s.plan.GrowsTo s'.plan) : Within rounds settled base n s' := by
  have hle := Nat.mul_le_mul_left rounds hgrows.tasks.settled_le
  unfold Within at h ⊢
  rw [hu.calls]
  exact Nat.le_trans h (Nat.add_le_add_left hle base)

theorem consulted (h : Within rounds settled base (n + 1) s) (hc : Consulted env wanted keep s s') :
    Within rounds settled base n s' := by
  have hle : rounds * s.plan.settledCount ≤ rounds * s'.plan.settledCount :=
    Nat.mul_le_mul_left rounds hc.grows.tasks.settled_le
  have hcalls := length_calls hc
  unfold Within at h ⊢
  omega

/-- The rounds that were advanced are paid back by one more settled task. -/
theorem paid (h : Within rounds settled (base + rounds) n s)
    (hlt : s.plan.settledCount < s'.plan.settledCount)
    (hcalls : (callsOf s'.trail).length + m ≤ (callsOf s.trail).length + n) :
    Within rounds settled base m s' := by
  have hle := Nat.mul_le_mul_left rounds hlt
  rw [Nat.mul_succ] at hle
  unfold Within at h ⊢
  omega

end Within

/-- The account of a task that is worked on when the model has answered. -/
theorem round_accounted {task : PlanTask} {left fuel : Nat}
    (h : Within rounds settled (base + rounds) (left + 2) s)
    (hopen : isSettled s.plan task = false) (hc : Consulted env wanted keep s s') :
    Accounted rounds settled base (.working task left fuel) s' := by
  refine ⟨h.consulted hc, ?_⟩
  by_cases hsettled : isSettled s'.plan task = true
  · have hcalls := length_calls hc
    exact Or.inr (h.paid (settledCount_lt hc.grows hopen hsettled) (by omega))
  · exact Or.inl (Bool.eq_false_iff.mpr hsettled)

/-- Every move keeps to the account. -/
theorem accounted_step {move : Move} (hd : Decides env rounds s c move)
    (h : Accounted rounds settled base c s) (hm : Moved env s s' move c')
    (hgrows : s.plan.GrowsTo s'.plan) : Accounted rounds settled base c' s' := by
  cases hd with
  | decide =>
    rcases hm.consulted with ⟨-, rfl, rfl⟩ | ⟨hc, turn, rfl, -⟩
    · exact Within.weaken h (by omega)
    · have h' : Within rounds settled base 1 s' := Within.consulted h hc
      exact Station.decided (P := fun c => Accounted rounds settled base c s')
        (fun _ => h'.weaken (by omega)) h'
  | noStep =>
    obtain ⟨rfl, rfl⟩ := hm.go_eq
    exact h
  | lateStep hlate =>
    obtain ⟨rfl, rfl⟩ := hm.go_eq
    exact Within.weaken h (by omega)
  | @step left hearly =>
    rcases hm.consulted with ⟨-, rfl, rfl⟩ | ⟨hc, turn, rfl, -⟩
    · exact Within.weaken h (by omega)
    · have h' : Within rounds settled base (left + 1) s' := Within.consulted h hc
      exact Station.decided (P := fun c => Accounted rounds settled base c s')
        (fun _ => h'.weaken (by omega)) h'
  | begin =>
    obtain ⟨rfl, -, hu⟩ := hm.mark_eq
    exact Within.uncounted h hu hgrows
  | seeded hopen =>
    obtain ⟨rfl, rfl⟩ := hm.go_eq
    exact Within.weaken h (by omega)
  | latePlan hclosed hlate =>
    obtain ⟨rfl, rfl⟩ := hm.go_eq
    exact Within.weaken h (by omega)
  | plan hclosed hearly =>
    rcases hm.consulted with ⟨-, rfl, rfl⟩ | ⟨hc, turn, rfl, -⟩
    · exact Within.weaken h (by omega)
    · exact Within.consulted h hc
  | execute =>
    obtain ⟨rfl, -, hu⟩ := hm.mark_eq
    exact Or.inl (Within.uncounted h hu hgrows)
  | noFuel => cases hm
  | noTask hnone =>
    obtain ⟨rfl, rfl⟩ := hm.go_eq
    rcases h with h | ⟨-, hopen, -⟩
    · exact h
    · exact absurd hopen (by simp [hasOpen_of_noTask hnone])
  | lateTask htask hlate =>
    obtain ⟨rfl, rfl⟩ := hm.go_eq
    rcases h with h | ⟨-, hopen, h⟩
    · exact Or.inl h
    · exact Or.inr ⟨hopen, h⟩
  | task htask hearly =>
    obtain ⟨rfl, rfl⟩ := hm.go_eq
    rcases h with h | ⟨hlate, -, -⟩
    · exact ⟨Nat.add_comm 1 rounds ▸ h.advanced, Or.inr h⟩
    · exact absurd hlate (by simp [hearly])
  | settled hsettled =>
    obtain ⟨rfl, rfl⟩ := hm.go_eq
    rcases h.2 with hopen | hpaid
    · exact absurd hsettled (by simp [hopen])
    · exact Or.inl hpaid
  | giveUp hopen hplan =>
    obtain ⟨rfl, hplan', hu⟩ := hm.replan_eq
    have hlt : s.plan.settledCount < s'.plan.settledCount := by
      refine settledCount_lt hgrows hopen ?_
      rw [hplan']
      exact isSettled_setStatus? rfl hplan
    exact Or.inl (h.1.paid hlt (Nat.le_of_eq (by rw [hu.calls])))
  | lateRound hopen hlate =>
    obtain ⟨rfl, rfl⟩ := hm.go_eq
    exact Or.inr ⟨hlate, hasOpen_of_unsettled hopen, h.1.weaken (by omega)⟩
  | round hopen hearly =>
    rcases hm.consulted with ⟨-, rfl, rfl⟩ | ⟨hc, turn, rfl, -⟩
    · exact Or.inr ⟨hasOpen_of_unsettled hopen, h.1.weaken (by omega)⟩
    · exact round_accounted h.1 hopen hc
  | drop hopen =>
    obtain ⟨rfl, hplan, hu⟩ := hm.replan_eq
    rcases h with h | ⟨-, h⟩
    · exact h.uncounted hu hgrows
    · have hlt : s.plan.settledCount < s'.plan.settledCount := by
        rw [hplan, Plan.settledCount_cancelOpen]
        exact Plan.settledCount_lt_length hopen
      exact h.paid hlt (Nat.le_of_eq (by rw [hu.calls]))
  | noOpen hclosed =>
    obtain ⟨rfl, rfl⟩ := hm.go_eq
    rcases h with h | ⟨hopen, -⟩
    · exact h
    · exact absurd hopen (by simp [hclosed])
  | close =>
    obtain ⟨rfl, -, hu⟩ := hm.mark_eq
    exact Within.uncounted h hu hgrows
  | spent hspent =>
    obtain ⟨rfl, rfl⟩ := hm.go_eq
    exact Within.weaken h (by omega)
  | summary hunspent =>
    rcases hm.consulted with ⟨-, rfl, rfl⟩ | ⟨hc, turn, rfl, -⟩
    · exact Within.weaken h (by omega)
    · exact Within.consulted h hc
  | apology =>
    obtain ⟨rfl, -, hu⟩ := hm.tell_eq
    exact Within.uncounted h hu hgrows
  | done =>
    obtain ⟨rfl, rfl⟩ := hm.go_eq
    exact h

/-! ## What it comes to -/

/-- The calls of a run, `n` more and the rounds of the tasks that were settled before it do not
exceed the free calls and the rounds of all tasks. -/
def Spends (rounds settled base n : Nat) (s : State) : Prop :=
  (callsOf s.trail).length + n + rounds * settled ≤ base + rounds * s.plan.tasks.length

theorem Within.spends (h : Within rounds settled base n s) : Spends rounds settled base n s := by
  have hle := Nat.mul_le_mul_left rounds s.plan.settledCount_le_length
  unfold Within at h
  unfold Spends
  omega

theorem Within.spends_open (h : Within rounds settled (base + rounds) n s)
    (hopen : s.plan.hasOpen = true) : Spends rounds settled base n s := by
  have hle := Nat.mul_le_mul_left rounds (Plan.settledCount_lt_length hopen)
  rw [Nat.mul_succ] at hle
  unfold Within at h
  unfold Spends
  omega

/-- Whether a run can still ask the model. -/
def Station.toAsk : Station → Nat
  | .exhausted => 0
  | .done => 0
  | _ => 1

theorem accounted_spends (h : Accounted rounds settled base c s) :
    Spends rounds settled base c.toAsk s := by
  cases c with
  | deciding => exact (Within.weaken h (Nat.le_succ 1)).spends
  | steps left => exact (Within.weaken h (Nat.le_add_left 1 left)).spends
  | opening fuel => exact (Within.weaken h (Nat.le_succ 1)).spends
  | planning fuel => exact (Within.weaken h (Nat.le_succ 1)).spends
  | executing fuel => exact Within.spends h
  | looking fuel =>
    rcases h with h | ⟨-, hopen, h⟩
    · exact h.spends
    · exact h.spends_open hopen
  | working task left fuel =>
    obtain ⟨h, hopen | hpaid⟩ := h
    · exact (h.weaken (Nat.le_add_left 1 left)).spends_open (hasOpen_of_unsettled hopen)
    · exact hpaid.spends
  | dropping =>
    rcases h with h | ⟨hopen, h⟩
    · exact h.spends
    · exact h.spends_open hopen
  | closing => exact Within.spends h
  | summarizing => exact Within.spends h
  | exhausted => exact Within.spends h
  | done => exact Within.spends h

theorem stopped_spends {halt : Halt} (h : Accounted rounds settled base c s)
    (hs : Stopped env s s' (c.move env rounds s) halt) : Spends rounds settled base 0 s' := by
  have hspends := accounted_spends h
  have hgrows := Nat.mul_le_mul_left rounds (stopped_grows hs).tasks.length_le
  unfold Spends at hspends ⊢
  rcases hs.counts with hu | ⟨wanted, keep, next, denied, hask, hc⟩
  · rw [hu.calls]
    omega
  · have hcan : c.toAsk = 1 := by
      cases c with
      | exhausted => cases hask
      | done => cases hask
      | _ => rfl
    have hcalls := length_calls hc
    omega

/-- A call that breaks off in the task loop leaves one that may still follow the loop. -/
theorem taskLoop_stopped_spends {halt : Halt} (hin : c.inTaskLoop = true)
    (h : Accounted rounds settled base c s) (hs : Stopped env s s' (c.move env rounds s) halt) :
    Spends rounds settled base 1 s' := by
  have hgrows := Nat.mul_le_mul_left rounds (stopped_grows hs).tasks.length_le
  rcases hs.counts with hu | ⟨wanted, keep, next, denied, hask, hc⟩
  · have hspends := accounted_spends h
    have hcan : c.toAsk = 1 := by
      cases c with
      | exhausted => cases hin
      | done => cases hin
      | _ => rfl
    unfold Spends at hspends ⊢
    rw [hu.calls]
    omega
  · have hd := decides env rounds s c
    rw [hask] at hd
    have hcalls := length_calls hc
    -- Only a task that is worked on, and is open, is the subject of a call.
    cases hd with
    | round hopen hearly =>
      have hspends := h.1.spends_open (hasOpen_of_unsettled hopen)
      unfold Spends at hspends ⊢
      omega
    | _ => cases hin

end Account

end AgentRun.Run
