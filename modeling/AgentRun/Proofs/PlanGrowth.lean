import Mathlib.Data.List.Nodup
import AgentRun.Plan.Tools

/-!
# How a plan may change

Whatever changes a plan, its tasks stay where they are with their names and descriptions, a final
status stays, and new tasks come behind the others (`Plan.GrowsTo`).
-/

namespace AgentRun

/-- What may become of a task. -/
structure PlanTask.KeptAs (t t' : PlanTask) : Prop where
  taskId : t'.taskId = t.taskId
  description : t'.description = t.description
  /-- A final status stays. -/
  status : t.status.isTerminal = true → t'.status = t.status

/-- What may become of the tasks of a plan: each is kept in its place, and others are added at the
end. -/
inductive TasksGrow : List PlanTask → List PlanTask → Prop
  | added (ts : List PlanTask) : TasksGrow [] ts
  | kept {t t' : PlanTask} {ts ts' : List PlanTask} (h : t.KeptAs t') (rest : TasksGrow ts ts') :
      TasksGrow (t :: ts) (t' :: ts')

/-- What may become of a plan. -/
structure Plan.GrowsTo (p q : Plan) : Prop where
  planId : q.planId = p.planId
  tasks : TasksGrow p.tasks q.tasks

theorem PlanTask.KeptAs.refl (t : PlanTask) : t.KeptAs t := ⟨rfl, rfl, fun _ => rfl⟩

theorem PlanTask.KeptAs.trans {t t' t'' : PlanTask} (h : t.KeptAs t') (h' : t'.KeptAs t'') :
    t.KeptAs t'' where
  taskId := h'.taskId.trans h.taskId
  description := h'.description.trans h.description
  status := fun ht => by
    have ht' : t'.status = t.status := h.status ht
    exact (h'.status (ht' ▸ ht)).trans ht'

/-- A task that is open may take any status. -/
theorem PlanTask.KeptAs.of_open {t : PlanTask} (h : t.status.isTerminal = false)
    (status : TaskStatus) : t.KeptAs { t with status := status } :=
  ⟨rfl, rfl, fun ht => absurd ht (by simp [h])⟩

namespace TasksGrow

theorem refl (ts : List PlanTask) : TasksGrow ts ts := by
  induction ts with
  | nil => exact .added []
  | cons t ts ih => exact .kept (.refl t) ih

theorem trans {ts us vs : List PlanTask} (h : TasksGrow ts us) (h' : TasksGrow us vs) :
    TasksGrow ts vs := by
  induction h generalizing vs with
  | added us => exact .added vs
  | kept h rest ih =>
    cases h' with
    | kept h' rest' => exact .kept (h.trans h') (ih rest')

theorem append (ts us : List PlanTask) : TasksGrow ts (ts ++ us) := by
  induction ts with
  | nil => exact .added us
  | cons t ts ih => exact .kept (.refl t) ih

theorem map {f : PlanTask → PlanTask} (hf : ∀ t : PlanTask, t.KeptAs (f t)) (ts : List PlanTask) :
    TasksGrow ts (ts.map f) := by
  induction ts with
  | nil => exact .added []
  | cons t ts ih => exact .kept (hf t) ih

/-- Only the task that a name finds is marked, so it is enough that this one is open. -/
theorem mark {taskId : String} {status : TaskStatus} {ts : List PlanTask}
    (h : ∀ t, ts.find? (fun t => t.taskId == taskId) = some t → t.status.isTerminal = false) :
    TasksGrow ts (Plan.mark taskId status ts) := by
  induction ts with
  | nil => exact .added []
  | cons t ts ih =>
    -- The first task of the name is marked, and it is the one that `find?` gives.
    unfold Plan.mark
    by_cases ht : t.taskId = taskId
    · rw [if_pos ht]
      exact .kept (.of_open (h t (by simp [ht])) status) (refl ts)
    · rw [if_neg ht]
      exact .kept (.refl t) (ih fun u hu => h u (by simpa [ht] using hu))

end TasksGrow

namespace Plan

theorem GrowsTo.refl (p : Plan) : p.GrowsTo p := ⟨rfl, .refl _⟩

theorem GrowsTo.trans {p q r : Plan} (h : p.GrowsTo q) (h' : q.GrowsTo r) : p.GrowsTo r :=
  ⟨h'.planId.trans h.planId, h.tasks.trans h'.tasks⟩

theorem setStatus?_grows {p q : Plan} {taskId : String} {status : TaskStatus}
    (h : p.setStatus? taskId status = .ok q) : p.GrowsTo q := by
  unfold setStatus? at h
  cases htask : p.task? taskId with
  | none => simp [htask] at h
  | some t =>
    simp only [htask] at h
    split at h
    · split at h
      · cases h
        exact .refl p
      · cases h
    · rename_i hopen
      cases h
      refine ⟨rfl, TasksGrow.mark fun u hu => ?_⟩
      obtain rfl : t = u := Option.some.inj (htask.symm.trans hu)
      exact Bool.eq_false_iff.mpr hopen

theorem cancel_kept (t : PlanTask) : t.KeptAs (cancel t) := by
  unfold cancel PlanTask.isOpen
  cases ht : t.status.isTerminal with
  | true => exact .refl t
  | false => exact .of_open ht .canceled

theorem cancelOpen_grows (p : Plan) : p.GrowsTo p.cancelOpen := ⟨rfl, .map cancel_kept _⟩

end Plan

/-! ## Names -/

/-- The tasks of a plan have different names. -/
def Plan.Distinct (p : Plan) : Prop := (p.tasks.map PlanTask.taskId).Nodup

instance (p : Plan) : Decidable p.Distinct :=
  inferInstanceAs (Decidable (p.tasks.map PlanTask.taskId).Nodup)

theorem TasksGrow.names_prefix {ts us : List PlanTask} (h : TasksGrow ts us) :
    ts.map PlanTask.taskId <+: us.map PlanTask.taskId := by
  induction h with
  | added us => exact List.nil_prefix
  | kept h rest ih =>
    rw [List.map_cons, List.map_cons, h.taskId]
    exact List.cons_prefix_cons.mpr ⟨rfl, ih⟩

/-- Different names were different all along. -/
theorem Plan.GrowsTo.distinct {p q : Plan} (h : p.GrowsTo q) (hq : q.Distinct) : p.Distinct :=
  hq.sublist h.tasks.names_prefix.sublist

/-- A task is found under its name if the names are different. -/
theorem Plan.Distinct.task?_eq {p : Plan} (h : p.Distinct) {t : PlanTask} (ht : t ∈ p.tasks) :
    p.task? t.taskId = some t := by
  unfold Plan.task?
  cases hfound : p.tasks.find? fun u => u.taskId == t.taskId with
  | none => exact absurd ht (by simpa using List.find?_eq_none.mp hfound t)
  | some u =>
    have hu : u.taskId = t.taskId := by simpa using List.find?_some hfound
    exact congrArg some (List.inj_on_of_nodup_map h (List.mem_of_find?_eq_some hfound) ht hu)

/-! ## Counting tasks -/

/-- How many tasks of a plan are settled. -/
def Plan.settledCount (p : Plan) : Nat := p.tasks.countP fun t => t.status.isTerminal

theorem PlanTask.KeptAs.counts {t t' : PlanTask} (h : t.KeptAs t') :
    (if t.status.isTerminal = true then 1 else 0) ≤
      if t'.status.isTerminal = true then 1 else 0 := by
  by_cases ht : t.status.isTerminal = true
  · exact Nat.le_of_eq (by rw [h.status ht])
  · rw [if_neg ht]
    exact Nat.zero_le _

namespace TasksGrow

variable {ts us : List PlanTask}

theorem length_le (h : TasksGrow ts us) : ts.length ≤ us.length := by
  induction h with
  | added us => exact Nat.zero_le _
  | kept h rest ih => exact Nat.succ_le_succ ih

theorem settled_le (h : TasksGrow ts us) :
    ts.countP (fun t => t.status.isTerminal) ≤ us.countP fun t => t.status.isTerminal := by
  induction h with
  | added us => exact Nat.zero_le _
  | @kept t t' ts us h rest ih =>
    have hcounts := h.counts
    rw [List.countP_cons, List.countP_cons]
    omega

/-- An open task stays under its name, and once it is settled there are more settled tasks. -/
theorem settles {taskId : String} {t : PlanTask} (h : TasksGrow ts us)
    (ht : ts.find? (fun t => t.taskId == taskId) = some t) (hopen : t.status.isTerminal = false) :
    ∃ u, us.find? (fun t => t.taskId == taskId) = some u ∧ (u.status.isTerminal = true →
      ts.countP (fun t => t.status.isTerminal) < us.countP fun t => t.status.isTerminal) := by
  induction h with
  | added us => cases ht
  | @kept t₀ t₁ ts us h rest ih =>
    have hle := rest.settled_le
    rw [List.countP_cons, List.countP_cons]
    by_cases hid : t₀.taskId = taskId
    · obtain rfl : t₀ = t := by simpa [hid] using ht
      refine ⟨t₁, by simp [h.taskId, hid], fun hterm => ?_⟩
      simp only [hopen, hterm, Bool.false_eq_true, if_true, if_false]
      omega
    · obtain ⟨u, hu, hlt⟩ := ih (by simpa [hid] using ht)
      refine ⟨u, by simpa [h.taskId, hid] using hu, fun hterm => ?_⟩
      have hlt := hlt hterm
      have hcounts := h.counts
      omega

end TasksGrow

namespace Plan

variable {p q : Plan}

theorem settledCount_le_length (p : Plan) : p.settledCount ≤ p.tasks.length :=
  List.countP_le_length

theorem openCount_add_settledCount (p : Plan) :
    p.openCount + p.settledCount = p.tasks.length := by
  have hcount := List.length_eq_countP_add_countP (fun t => t.status.isTerminal) (l := p.tasks)
  have hopen : p.tasks.countP (fun t => decide ¬t.status.isTerminal = true) = p.openCount :=
    List.countP_congr fun t _ => by simp [PlanTask.isOpen]
  rw [hopen] at hcount
  unfold settledCount
  omega

theorem settledCount_lt_length (h : p.hasOpen = true) : p.settledCount < p.tasks.length := by
  have hopen : 0 < p.openCount := by
    obtain ⟨t, ht, hopen⟩ := List.any_eq_true.mp h
    exact List.countP_pos_iff.mpr ⟨t, ht, hopen⟩
  have hsum := p.openCount_add_settledCount
  omega

theorem isTerminal_cancel (t : PlanTask) : (cancel t).status.isTerminal = true := by
  unfold cancel
  split
  · rfl
  · rename_i h
    simpa [PlanTask.isOpen] using h

theorem settledCount_cancelOpen (p : Plan) : p.cancelOpen.settledCount = p.tasks.length := by
  unfold settledCount cancelOpen
  rw [List.countP_map, List.countP_eq_length]
  exact fun t _ => isTerminal_cancel t

end Plan

/-- A call of a plan tool that is accepted lets the plan grow. -/
theorem PlanTool.apply_grows {tool : PlanTool} {args : Json} {fresh : Nat → String} {p q : Plan}
    {change : PlanChange} (h : tool.apply args fresh p = .ok (change, q)) : p.GrowsTo q := by
  cases tool with
  | addTasks =>
    simp only [apply] at h
    cases hds : descriptions args with
    | error e => simp [hds, Except.map] at h
    | ok ds =>
      simp only [hds, Except.map, Except.ok.injEq, Prod.mk.injEq] at h
      rw [← h.2]
      exact ⟨rfl, .append _ _⟩
  | updateTask =>
    simp only [apply] at h
    cases hout : outcome args with
    | error e => simp [hout, bind, Except.bind] at h
    | ok o =>
      obtain ⟨taskId, status⟩ := o
      simp only [hout, bind, Except.bind] at h
      cases hset : p.setStatus? taskId status with
      | error e => simp [hset] at h
      | ok q' =>
        simp only [hset, pure, Except.pure, Except.ok.injEq, Prod.mk.injEq] at h
        rw [← h.2]
        exact Plan.setStatus?_grows hset

end AgentRun
