import AgentRun.Proofs.Documents
import AgentRun.Proofs.PlanCalls
import AgentRun.Proofs.TaskReasons

/-!
# Plans in use

A plan in use is changed where it stands: the status of a task is set on the way through the tasks
(`Plan.assign`), what is open is dropped task by task and counted (`Plan.dropOpen`), and a call of a
plan tool works as `PlanTool.carryOut` says. Each of these does to the plan as a whole what the
library says of it, so the operations may come in any order: the plan grows, what is refused leaves
it alone, and its names are those of its first tasks with minted ones behind them.
-/

namespace AgentRun

namespace Plan

/-- Sets the status of the first task with a name. -/
def assign (taskId : String) (status : TaskStatus) :
    List PlanTask → Except PlanError Unit × List PlanTask
  | [] => (.error (.unknownTask taskId), [])
  | t :: rest =>
    if t.taskId = taskId then
      if t.status.isTerminal then
        if t.status = status then (.ok (), t :: rest)
        else (.error (.alreadyTerminal taskId t.status), t :: rest)
      else (.ok (), { t with status := status } :: rest)
    else
      let (result, rest) := assign taskId status rest
      (result, t :: rest)

/-- Drops what is open and counts it, on from a number that were dropped before. -/
def dropOpen (dropped : Nat) : List PlanTask → Nat × List PlanTask
  | [] => (dropped, [])
  | t :: rest =>
    if t.isOpen then
      let (count, rest) := dropOpen (dropped + 1) rest
      (count, { t with status := .canceled } :: rest)
    else
      let (count, rest) := dropOpen dropped rest
      (count, t :: rest)

end Plan

/-- A plan, and how many names have been minted. -/
structure PlanInUse where
  plan : Plan
  minted : Nat

/-- An operation on a plan. -/
inductive PlanOp where
  | add (description : String)
  | set (taskId : String) (status : TaskStatus)
  /-- Drops what is open. -/
  | drop
  /-- A call of a plan tool. -/
  | call (tool : PlanTool) (args : Json)

/-- What an operation answers. -/
inductive PlanAnswer where
  | added (taskId : String)
  | set
  | dropped (count : Nat)
  | changed (change : PlanChange)
  | refused (e : PlanError)
  /-- A plan tool refuses. -/
  | failed (e : ToolError)

def PlanAnswer.isRefusal : PlanAnswer → Bool
  | .refused _ => true
  | .failed _ => true
  | _ => false

namespace PlanOp

/-- An operation on a plan in use: its answer, and what it leaves behind. -/
def perform (supply : Supply) (op : PlanOp) (s : PlanInUse) : PlanAnswer × PlanInUse :=
  match op with
  | .add description =>
    match s.plan.add? (IdKind.task.mint supply s.minted) description with
    | .ok plan => (.added (IdKind.task.mint supply s.minted), ⟨plan, s.minted + 1⟩)
    | .error e => (.refused e, s)
  | .set taskId status =>
    let (result, tasks) := Plan.assign taskId status s.plan.tasks
    let left : PlanInUse := { s with plan := { s.plan with tasks := tasks } }
    match result with
    | .ok () => (.set, left)
    | .error e => (.refused e, left)
  | .drop =>
    let (count, tasks) := Plan.dropOpen 0 s.plan.tasks
    (.dropped count, { s with plan := { s.plan with tasks := tasks } })
  | .call tool args =>
    let (result, plan) :=
      tool.carryOut args (fun i => IdKind.task.mint supply (s.minted + i)) s.plan
    match result with
    | .ok change => (.changed change, ⟨plan, s.minted + change.minted⟩)
    | .error e => (.failed e, { s with plan := plan })

/-- One operation after another. -/
def performAll (supply : Supply) : List PlanOp → PlanInUse → PlanInUse
  | [], s => s
  | op :: rest, s => performAll supply rest (op.perform supply s).2

end PlanOp

variable {supply : Supply} {s : PlanInUse} {least : Nat} {first : List String}

/-! ## Changes in place -/

theorem Plan.assign_eq (taskId : String) (status : TaskStatus) (p : Plan) :
    Plan.assign taskId status p.tasks = match p.setStatus? taskId status with
      | .ok q => (.ok (), q.tasks)
      | .error e => (.error e, p.tasks) := by
  obtain ⟨planId, tasks⟩ := p
  induction tasks with
  | nil => rfl
  | cons t rest ih =>
    by_cases ht : t.taskId = taskId
    · have hfound : Plan.task? ⟨planId, t :: rest⟩ taskId = some t := by simp [Plan.task?, ht]
      simp only [Plan.assign, Plan.setStatus?, hfound, if_pos ht, Plan.mark]
      by_cases hfinal : t.status.isTerminal = true
      · by_cases hsame : t.status = status
        · simp only [if_pos hfinal, if_pos hsame]
        · simp only [if_pos hfinal, if_neg hsame]
      · simp only [if_neg hfinal]
    · -- Another task stands first, so the rest of the plan decides, and it is put behind this task.
      have hfound : Plan.task? ⟨planId, t :: rest⟩ taskId = Plan.task? ⟨planId, rest⟩ taskId := by
        simp [Plan.task?, ht]
      simp only [Plan.assign, Plan.setStatus?, hfound, if_neg ht, Plan.mark, ih]
      cases Plan.task? ⟨planId, rest⟩ taskId with
      | none => rfl
      | some u =>
        dsimp only
        by_cases hfinal : u.status.isTerminal = true
        · by_cases hsame : u.status = status
          · simp only [if_pos hfinal, if_pos hsame]
          · simp only [if_pos hfinal, if_neg hsame]
        · simp only [if_neg hfinal]

theorem Plan.dropOpen_eq (dropped : Nat) (ts : List PlanTask) :
    Plan.dropOpen dropped ts =
      (dropped + ts.countP PlanTask.isOpen, ts.map Plan.cancel) := by
  induction ts generalizing dropped with
  | nil => rfl
  | cons t rest ih =>
    by_cases hopen : t.isOpen = true
    · have hcount : dropped + 1 + rest.countP PlanTask.isOpen =
          dropped + (rest.countP PlanTask.isOpen + 1) := by omega
      simp only [Plan.dropOpen, if_pos hopen, ih, List.countP_cons_of_pos hopen, List.map_cons,
        Plan.cancel, hcount]
    · simp only [Plan.dropOpen, if_neg hopen, ih, List.countP_cons_of_neg hopen, List.map_cons,
        Plan.cancel]

namespace PlanOp

theorem perform_add (description : String) : (add description).perform supply s =
    if Text.isBlankText description then (.refused .emptyDescription, s)
    else (.added (IdKind.task.mint supply s.minted),
      ⟨{ s.plan with tasks :=
        s.plan.tasks ++ [⟨IdKind.task.mint supply s.minted, description, .init⟩] },
        s.minted + 1⟩) := by
  simp only [perform, Plan.add?]
  by_cases hblank : Text.isBlankText description = true
  · simp only [if_pos hblank]
  · simp only [if_neg hblank]

theorem perform_set (taskId : String) (status : TaskStatus) :
    (PlanOp.set taskId status).perform supply s = match s.plan.setStatus? taskId status with
      | .ok q => (.set, ⟨q, s.minted⟩)
      | .error e => (.refused e, s) := by
  simp only [perform, Plan.assign_eq]
  cases hset : s.plan.setStatus? taskId status with
  | error e => rfl
  | ok q =>
    have hid : q.planId = s.plan.planId := (Plan.setStatus?_grows hset).planId
    simp only [← hid]

theorem perform_drop : drop.perform supply s =
    (.dropped (s.plan.tasks.countP PlanTask.isOpen), ⟨s.plan.cancelOpen, s.minted⟩) := by
  simp only [perform, Plan.dropOpen_eq, Nat.zero_add]
  rfl

theorem perform_call (tool : PlanTool) (args : Json) : (call tool args).perform supply s =
    match tool.apply args (fun i => IdKind.task.mint supply (s.minted + i)) s.plan with
      | .ok (change, q) => (.changed change, ⟨q, s.minted + change.minted⟩)
      | .error e => (.failed e, s) := by
  simp only [perform, PlanTool.carryOut_eq]
  cases tool.apply args (fun i => IdKind.task.mint supply (s.minted + i)) s.plan with
  | error e => rfl
  | ok o => rfl

/-! ## One operation -/

/-- What is refused changes nothing. -/
theorem perform_refused {op : PlanOp} (h : (op.perform supply s).1.isRefusal = true) :
    (op.perform supply s).2 = s := by
  cases op with
  | add description =>
    rw [perform_add] at h ⊢
    split at h
    · rename_i hblank
      rw [if_pos hblank]
    · cases h
  | set taskId status =>
    rw [perform_set] at h ⊢
    cases hset : s.plan.setStatus? taskId status with
    | error e => rfl
    | ok q =>
      rw [hset] at h
      cases h
  | drop =>
    rw [perform_drop] at h
    cases h
  | call tool args =>
    rw [perform_call] at h ⊢
    cases happly : tool.apply args (fun i => IdKind.task.mint supply (s.minted + i)) s.plan with
    | error e => rfl
    | ok o =>
      rw [happly] at h
      cases h

theorem perform_grows (op : PlanOp) : s.plan.GrowsTo (op.perform supply s).2.plan := by
  cases op with
  | add description =>
    rw [perform_add]
    split
    · exact .refl _
    · exact ⟨rfl, .append _ _⟩
  | set taskId status =>
    rw [perform_set]
    cases hset : s.plan.setStatus? taskId status with
    | error e => exact .refl _
    | ok q => exact Plan.setStatus?_grows hset
  | drop =>
    rw [perform_drop]
    exact Plan.cancelOpen_grows _
  | call tool args =>
    rw [perform_call]
    cases happly : tool.apply args (fun i => IdKind.task.mint supply (s.minted + i)) s.plan with
    | error e => exact .refl _
    | ok o => exact PlanTool.apply_grows happly

end PlanOp

/-! ## Names -/

theorem PlanTool.apply_named {tool : PlanTool} {args : Json} {p q : Plan} {n : Nat}
    {change : PlanChange} (h : NamedFrom supply least first n p)
    (happly : tool.apply args (fun i => IdKind.task.mint supply (n + i)) p = .ok (change, q)) :
    NamedFrom supply least first (n + change.minted) q := by
  cases tool with
  | addTasks =>
    obtain ⟨items, texts, -, -, -, rfl, rfl⟩ := apply_addTasks_eq_ok.mp happly
    obtain ⟨new, -, -, hnames, hadded⟩ :=
      PlanTool.addTasksTo_names p supply n (texts.map Text.trim)
    rw [addTasksTo_eq, Prod.mk.injEq, Plan.mk.injEq] at hadded
    obtain rfl := List.append_cancel_left hadded.2.2
    rw [PlanChange.minted, List.length_map]
    exact h.added _ rfl hnames
  | updateTask =>
    obtain ⟨taskId, word, status, -, -, -, hset, rfl⟩ := apply_updateTask_eq_ok.mp happly
    exact h.congr (Plan.setStatus?_names hset)

theorem PlanOp.perform_named (op : PlanOp) (h : NamedFrom supply least first s.minted s.plan) :
    NamedFrom supply least first (op.perform supply s).2.minted (op.perform supply s).2.plan := by
  cases op with
  | add description =>
    rw [perform_add]
    split
    · exact h
    · exact h.added [⟨_, description, .init⟩] rfl rfl
  | set taskId status =>
    rw [perform_set]
    cases hset : s.plan.setStatus? taskId status with
    | error e => exact h
    | ok q => exact h.congr (Plan.setStatus?_names hset)
  | drop =>
    rw [perform_drop]
    exact h.congr (Plan.cancelOpen_names _)
  | call tool args =>
    rw [perform_call]
    cases happly : tool.apply args (fun i => IdKind.task.mint supply (s.minted + i)) s.plan with
    | error e => exact h
    | ok o => exact PlanTool.apply_named h happly

/-! ## All operations -/

namespace PlanOp

theorem performAll_grows (ops : List PlanOp) (s : PlanInUse) :
    s.plan.GrowsTo (performAll supply ops s).plan := by
  induction ops generalizing s with
  | nil => exact .refl _
  | cons op rest ih => exact (perform_grows op).trans (ih _)

theorem performAll_named (ops : List PlanOp)
    (h : NamedFrom supply least first s.minted s.plan) :
    NamedFrom supply least first (performAll supply ops s).minted
      (performAll supply ops s).plan := by
  induction ops generalizing s with
  | nil => exact h
  | cons op rest ih => exact ih (perform_named op h)

end PlanOp

theorem Plan.hasOpen_iff (p : Plan) : p.hasOpen = true ↔ ∃ t, p.nextOpen? = some t := by
  rw [Plan.hasOpen, Plan.nextOpen?, ← Option.isSome_iff_exists, List.find?_isSome,
    List.any_eq_true]

theorem Plan.nextOpen?_eq_some (p : Plan) (t : PlanTask) : p.nextOpen? = some t ↔
    t.isOpen = true ∧ ∃ before after, p.tasks = before ++ t :: after ∧
      ∀ u ∈ before, u.isOpen = false := by
  simp [Plan.nextOpen?, List.find?_eq_some_iff_append]

/-- Whatever is done with a plan, in whatever order: afterwards it has the tasks that it had, under
their names and descriptions and in their places, with any final status kept, and new tasks behind
them; what is refused changes nothing; dropping what is open tells how much that was and leaves
nothing open; there is an open task just when there is a next one, which is the first of them;
setting a status changes the first task of the name and no other; names that were different stay
different if no name is minted twice; and the plan reads back from its document. -/
theorem plans_in_use_only_grow (supply : Supply) (p : Plan) (n : Nat) (ops more : List PlanOp) :
    let s := PlanOp.performAll supply ops ⟨p, n⟩
    s.plan.GrowsTo (PlanOp.performAll supply more s).plan ∧
    (∀ op : PlanOp, (op.perform supply s).1.isRefusal = true → (op.perform supply s).2 = s) ∧
    (PlanOp.drop.perform supply s =
        (.dropped (s.plan.tasks.countP PlanTask.isOpen), ⟨s.plan.cancelOpen, s.minted⟩) ∧
      ∀ t ∈ s.plan.cancelOpen.tasks, t.isOpen = false) ∧
    (s.plan.hasOpen = true ↔ ∃ t, s.plan.nextOpen? = some t) ∧
    (∀ t, s.plan.nextOpen? = some t ↔ t.isOpen = true ∧ ∃ before after,
      s.plan.tasks = before ++ t :: after ∧ ∀ u ∈ before, u.isOpen = false) ∧
    (∀ taskId status r, (PlanOp.set taskId status).perform supply s = (.set, r) ↔
      ∃ before t after, s.plan.tasks = before ++ t :: after ∧ (∀ u ∈ before, u.taskId ≠ taskId) ∧
        t.taskId = taskId ∧ (t.status = .init ∨ t.status = status) ∧
        r = ⟨{ s.plan with tasks := before ++ { t with status := status } :: after }, s.minted⟩) ∧
    (p.Distinct → Set.InjOn supply (Set.Iio s.minted) →
      (∀ t ∈ p.tasks, ∀ i, n ≤ i → t.taskId ≠ IdKind.task.mint supply i) → s.plan.Distinct) ∧
    Plan.ofJson? s.plan.toJson = some s.plan := by
  intro s
  refine ⟨PlanOp.performAll_grows more s, fun op h => PlanOp.perform_refused h,
    ⟨PlanOp.perform_drop, ?_⟩, Plan.hasOpen_iff _, Plan.nextOpen?_eq_some _,
    fun taskId status r => ?_, fun hdistinct hids hfresh => ?_, Plan.ofJson?_toJson _⟩
  · intro t ht
    have hnone : s.plan.cancelOpen.hasOpen = false := Run.hasOpen_cancelOpen s.plan
    exact Bool.eq_false_iff.mpr (List.any_eq_false.mp hnone t ht)
  · have hset : (PlanOp.set taskId status).perform supply s = (.set, r) ↔
        ∃ q, s.plan.setStatus? taskId status = .ok q ∧ r = ⟨q, s.minted⟩ := by
      rw [PlanOp.perform_set]
      cases s.plan.setStatus? taskId status with
      | error e => simp
      | ok q => simp [eq_comm]
    rw [hset]
    constructor
    · rintro ⟨q, hq, rfl⟩
      obtain ⟨before, t, after, htasks, hbefore, ht, hstatus, rfl⟩ := setStatus?_eq_ok.mp hq
      exact ⟨before, t, after, htasks, hbefore, ht, hstatus, rfl⟩
    · rintro ⟨before, t, after, htasks, hbefore, ht, hstatus, rfl⟩
      exact ⟨_, setStatus?_eq_ok.mpr ⟨before, t, after, htasks, hbefore, ht, hstatus, rfl⟩, rfl⟩
  · have hnamed : NamedFrom supply n (p.tasks.map PlanTask.taskId) s.minted s.plan :=
      PlanOp.performAll_named ops (NamedFrom.start p (Nat.le_refl n))
    refine hnamed.distinct hdistinct hids fun name hname i hi => ?_
    obtain ⟨t, ht, rfl⟩ := List.mem_map.mp hname
    exact hfresh t ht i hi

/-- A seeded plan in use: an open task is set to open again, a settled one cannot be, a task comes
in by hand and one by a call, and what is open is dropped. The names stay different. -/
theorem seeded_plan_stays_distinct :
    let p : Plan := ⟨"plan_1", [⟨"look", "Look it up", .init⟩, ⟨"check", "Check it", .failed⟩]⟩
    let ops : List PlanOp := [.set "look" .init, .set "check" .init, .add "Write it down",
      .call .addTasks (.obj [("tasks", .arr [.str " Send it "])]), .drop]
    let s := PlanOp.performAll (Uuid.timed 0) ops ⟨p, 0⟩
    s.plan.tasks.map (fun t => (t.description, t.status)) =
        [("Look it up", .canceled), ("Check it", .failed), ("Write it down", .canceled),
          ("Send it", .canceled)] ∧
      s.minted = 2 ∧ s.plan.Distinct := by
  intro p ops s
  have htasks : s.plan.tasks.map (fun t => (t.description, t.status)) =
      [("Look it up", .canceled), ("Check it", .failed), ("Write it down", .canceled),
        ("Send it", .canceled)] := by
    decide +kernel
  have hminted : s.minted = 2 := by decide +kernel
  have huuids : ∀ i < 2, ∀ j < 2, Uuid.timed 0 i = Uuid.timed 0 j → i = j := by decide
  have hids : Set.InjOn (Uuid.timed 0) (Set.Iio s.minted) := by
    rw [hminted]
    exact fun i hi j hj hij => huuids i hi j hj hij
  have hseeds : ∀ t ∈ p.tasks, t.taskId.toList.head? ≠ some 't' := by decide
  have hmints (i : Nat) : (IdKind.task.mint (Uuid.timed 0) i).toList.head? = some 't' := by
    simp [IdKind.mint, IdKind.withUuid, IdKind.tag]
  obtain ⟨-, -, -, -, -, -, hdistinct, -⟩ := plans_in_use_only_grow (Uuid.timed 0) p 0 ops []
  exact ⟨htasks, hminted, hdistinct (by decide) hids fun t ht i _ hid =>
    hseeds t ht (hid ▸ hmints i)⟩

end AgentRun
