import Mathlib.Logic.Function.Basic
import AgentRun.Proofs.Deadline
import AgentRun.Proofs.StageOrder
import AgentRun.Proofs.TaskLoop
import AgentRun.Proofs.TaskReasons

/-!
# How the tasks are worked off

A run takes its tasks up in the order of the plan, each of them once, and makes some calls for it in
a row. So its calls are a share for each task, one after another (`Shares`), and when it comes to a
task none of those behind it has a share yet. A task that no update settles is given up when its
share is as large as it may be, and it is dropped if the run is cut off before (`Excused`).
`WorkedOff` says this for every station, and every move keeps to it.
-/

namespace AgentRun.Run

/-- The terms on which tasks are worked off. -/
structure Terms where
  env : Env
  /-- The plan that the run began with. -/
  seed : Plan
  /-- The rounds for each task. -/
  rounds : Nat
  /-- Which tasks the run was cut off from. -/
  cut : String → Prop

variable {τ : Terms} {work : String → List (Nat × ModelRequest)} {ids more : List String}
  {p q : Plan} {taskId : String} {call : Nat × ModelRequest}

/-- The calls for some of the tasks, which are the first of the plan. -/
structure Shares (τ : Terms) (work : String → List (Nat × ModelRequest)) (ids : List String)
    (p : Plan) : Prop where
  part : ids <+: p.tasks.map PlanTask.taskId
  idle : ∀ taskId, taskId ∉ ids → work taskId = []
  most : ∀ taskId, (work taskId).length ≤ τ.rounds
  made : ∀ task ∈ p.tasks, ∀ call ∈ work task.taskId,
    ∃ history, call.2 = requestFor τ.env history (taskAsk τ.env task)

/-- A task that was there before the plan grew. -/
theorem former_task {ts us : List PlanTask} (hgrows : TasksGrow ts us)
    (hnames : (us.map PlanTask.taskId).Nodup) {task : PlanTask} (htask : task ∈ us)
    (hid : task.taskId ∈ ts.map PlanTask.taskId) : ∃ t ∈ ts, t.KeptAs task := by
  induction hgrows with
  | added us => exact absurd hid List.not_mem_nil
  | @kept t t' ts us h rest ih =>
    rw [List.map_cons, List.nodup_cons] at hnames
    rcases List.mem_cons.mp htask with rfl | htask
    · exact ⟨t, List.mem_cons_self, h⟩
    · rw [List.map_cons] at hid
      rcases List.mem_cons.mp hid with hsame | hid
      · refine absurd ?_ hnames.1
        rw [h.taskId, ← hsame]
        exact List.mem_map_of_mem htask
      · obtain ⟨u, hu, hkept⟩ := ih hnames.2 htask hid
        exact ⟨u, List.mem_cons_of_mem t hu, hkept⟩

theorem taskAsk_kept {env : Env} {t task : PlanTask} (h : t.KeptAs task) :
    taskAsk env task = taskAsk env t := by
  unfold taskAsk taskDirective
  rw [h.taskId, h.description]

namespace Shares

theorem nothing (τ : Terms) (p : Plan) : Shares τ (fun _ => []) [] p where
  part := List.nil_prefix
  idle := fun _ _ => rfl
  most := fun _ => Nat.zero_le _
  made := fun _ _ _ h => absurd h List.not_mem_nil

/-- The next tasks have no share yet. -/
theorem extend (h : Shares τ work ids p) (hpart : ids ++ more <+: p.tasks.map PlanTask.taskId)
    (hnames : p.Distinct) :
    Shares τ work (ids ++ more) p ∧ (ids ++ more).flatMap work = ids.flatMap work := by
  have hother : ∀ taskId ∈ more, work taskId = [] := by
    intro taskId hmem
    have hnodup : (ids ++ more).Nodup := hnames.sublist hpart.sublist
    exact h.idle taskId fun hid => (List.nodup_append.mp hnodup).2.2 _ hid _ hmem rfl
  refine ⟨⟨hpart, fun taskId hid => h.idle taskId fun hmem => hid ?_, h.most, h.made⟩, ?_⟩
  · exact List.mem_append_left _ hmem
  · rw [List.flatMap_append, List.flatMap_eq_nil_iff.mpr hother, List.append_nil]

theorem grow (h : Shares τ work ids p) (hgrows : p.GrowsTo q) (hnames : q.Distinct) :
    Shares τ work ids q := by
  refine ⟨h.part.trans hgrows.tasks.names_prefix, h.idle, h.most, fun task htask call hcall => ?_⟩
  have hid : task.taskId ∈ ids := by
    by_contra hid
    rw [h.idle _ hid] at hcall
    exact absurd hcall List.not_mem_nil
  obtain ⟨t, ht, hkept⟩ := former_task hgrows.tasks hnames htask (h.part.subset hid)
  rw [hkept.taskId] at hcall
  rw [taskAsk_kept hkept]
  exact h.made t ht call hcall

/-- One more call for the task that was taken up last. -/
theorem charge (h : Shares τ work (ids ++ [taskId]) p) (call : Nat × ModelRequest)
    (hless : (work taskId).length < τ.rounds)
    (hcall : ∀ task ∈ p.tasks, task.taskId = taskId →
      ∃ history, call.2 = requestFor τ.env history (taskAsk τ.env task)) :
    Shares τ (Function.update work taskId (work taskId ++ [call])) (ids ++ [taskId]) p := by
  refine ⟨h.part, fun other hother => ?_, fun other => ?_, fun task htask c hc => ?_⟩
  · rw [Function.update_of_ne (by rintro rfl; simp at hother)]
    exact h.idle other hother
  · by_cases hid : other = taskId
    · rw [hid, Function.update_self, List.length_append, List.length_singleton]
      exact hless
    · rw [Function.update_of_ne hid]
      exact h.most other
  · by_cases hid : task.taskId = taskId
    · rw [hid, Function.update_self] at hc
      rcases List.mem_append.mp hc with hc | hc
      · exact h.made task htask c (hid ▸ hc)
      · rw [List.mem_singleton.mp hc]
        exact hcall task htask hid
    · rw [Function.update_of_ne hid] at hc
      exact h.made task htask c hc

theorem flatMap_charge (h : Shares τ work (ids ++ [taskId]) p) (hnames : p.Distinct) :
    (ids ++ [taskId]).flatMap (Function.update work taskId (work taskId ++ [call])) =
      (ids ++ [taskId]).flatMap work ++ [call] := by
  have hnodup : (ids ++ [taskId]).Nodup := hnames.sublist h.part.sublist
  have hbefore : ∀ other ∈ ids,
      Function.update work taskId (work taskId ++ [call]) other = work other := by
    intro other hother
    refine Function.update_of_ne (fun hid => ?_) _ _
    exact (List.nodup_append.mp hnodup).2.2 _ hother _ List.mem_cons_self hid
  rw [List.flatMap_append, List.flatMap_append, List.flatMap_singleton, List.flatMap_singleton,
    Function.update_self, List.append_assoc, List.flatMap_congr hbefore]

end Shares

/-! ## Where a run is in its work -/

/-- Why a task is settled for which nothing was recorded. -/
inductive Excused (τ : Terms) (work : String → List (Nat × ModelRequest)) (task : PlanTask) : Prop
  | seeded {t : PlanTask} (ht : t ∈ τ.seed.tasks) (hid : t.taskId = task.taskId)
      (hclosed : t.isOpen = false)
  /-- Its rounds were used up. -/
  | exhausted (hstatus : task.status = .failed) (hrounds : (work task.taskId).length = τ.rounds)
  | dropped (hstatus : task.status = .canceled) (hrounds : (work task.taskId).length < τ.rounds)
      (hcut : τ.cut task.taskId)

theorem Excused.congr {work' : String → List (Nat × ModelRequest)} {task : PlanTask}
    (h : Excused τ work task) (hsame : work' task.taskId = work task.taskId) :
    Excused τ work' task := by
  cases h with
  | seeded ht hid hclosed => exact .seeded ht hid hclosed
  | exhausted hstatus hrounds => exact .exhausted hstatus (hsame ▸ hrounds)
  | dropped hstatus hrounds hcut => exact .dropped hstatus (hsame ▸ hrounds) hcut

/-- The model calls since the execution began. -/
def Executing (calls : List (Nat × ModelRequest)) : List Entry → Prop :=
  Staged "execute" (Planned 1) fun u => callsOf u = calls

/-- The model calls from the beginning of the execution to that of the summary. -/
def ExecutedBy (calls : List (Nat × ModelRequest)) : List Entry → Prop :=
  Staged "summary" (Executing calls) fun _ => True

/-- The tasks of some names were worked on, and no others. -/
structure Worked (τ : Terms) (shown : List (Nat × ModelRequest) → List Entry → Prop)
    (work : String → List (Nat × ModelRequest)) (ids : List String) (s : State) : Prop
    extends Shares τ work ids s.plan where
  calls : shown (ids.flatMap work) s.trail
  reasons : Reasoned (Excused τ work) s.records s.plan

/-- The tasks of some names are settled. -/
def NoneOpen (ids : List String) (p : Plan) : Prop :=
  ∀ task ∈ p.tasks, task.taskId ∈ ids → task.isOpen = false

/-- No task that is open has used up its rounds. -/
def Short (τ : Terms) (work : String → List (Nat × ModelRequest)) (p : Plan) : Prop :=
  ∀ task ∈ p.tasks, task.isOpen = true → (work task.taskId).length < τ.rounds

/-- How far a run has come with its tasks at a station. -/
def WorkedOff (τ : Terms) : Station → State → Prop
  | .opening _, s => Reasoned (Excused τ fun _ => []) s.records s.plan
  | .planning _, s => Reasoned (Excused τ fun _ => []) s.records s.plan
  | .executing _, s => Reasoned (Excused τ fun _ => []) s.records s.plan
  | .looking _, s => ∃ work ids, Worked τ Executing work ids s ∧ Short τ work s.plan ∧
      (NoneOpen ids s.plan ∨ s.spending.isTimedOut s.now = true)
  | .working task left _, s => ∃ work ids, Worked τ Executing work (ids ++ [task.taskId]) s ∧
      NoneOpen ids s.plan ∧ (work task.taskId).length + left = τ.rounds ∧
      ∀ t ∈ s.plan.tasks, t.taskId = task.taskId → t.description = task.description
  | .dropping, s => ∃ work ids, Worked τ Executing work ids s ∧ Short τ work s.plan ∧
      ∀ t ∈ s.plan.tasks, t.isOpen = true → τ.cut t.taskId
  | .closing, s => ∃ work ids, Worked τ Executing work ids s ∧ s.plan.hasOpen = false
  | .summarizing, s => ∃ work ids, Worked τ ExecutedBy work ids s ∧ s.plan.hasOpen = false
  | .exhausted, s => ∃ work ids, Worked τ ExecutedBy work ids s ∧ s.plan.hasOpen = false
  | .done, s => ∃ work ids, Worked τ ExecutedBy work ids s ∧ s.plan.hasOpen = false
  | _, _ => False

section Steps

variable {env : Env} {s s' : State} {c c' : Station} {m : Move}
  {calls new : List (Nat × ModelRequest)} {reason : PlanTask → Prop} {task : PlanTask}

theorem Executing.moved (h : Executing calls s.trail) (hm : Moved env s s' m c')
    (hmark : ∀ label dest, m ≠ .mark label dest)
    (hcalls : callsOf s'.trail = callsOf s.trail ++ new) : Executing (calls ++ new) s'.trail := by
  obtain ⟨v, htrail, hv⟩ := hm.adds hmark
  rw [htrail, callsOf_append] at hcalls
  obtain ⟨before, since, hbefore, hsince, rfl, heq⟩ := h
  refine ⟨before, since ++ v, hbefore, ?_, ?_, ?_⟩
  · rw [stagesShown_append, hsince, hv.stages]
    rfl
  · show callsOf (since ++ v) = callsOf since ++ new
    rw [callsOf_append, List.append_cancel_left hcalls]
  · rw [htrail, heq, List.append_assoc]
    rfl

theorem Executing.uncounted (h : Executing calls s.trail) (hm : Moved env s s' m c')
    (hmark : ∀ label dest, m ≠ .mark label dest) (hu : Uncounted s s') :
    Executing calls s'.trail := by
  have hmoved : Executing (calls ++ []) s'.trail :=
    h.moved hm hmark (by rw [hu.calls, List.append_nil])
  rwa [List.append_nil] at hmoved

theorem Recorded.reasoned (hr : Recorded env m s s') (hnames : s'.plan.Distinct)
    (h : Reasoned reason s.records (m.planOf s.plan)) : Reasoned reason s'.records s'.plan := by
  obtain ⟨rs, n, hrecords, -, hrs⟩ := hr
  rw [hrecords]
  exact h.recordedAll hnames hrs

theorem isSettled_of_mem (hnames : p.Distinct) {t : PlanTask} (ht : t ∈ p.tasks)
    (hid : t.taskId = task.taskId) : isSettled p task = t.status.isTerminal := by
  unfold isSettled
  rw [← hid, hnames.task?_eq ht]
  rfl

theorem NoneOpen.grow (h : NoneOpen ids p) (hpart : ids <+: p.tasks.map PlanTask.taskId)
    (hgrows : p.GrowsTo q) (hnames : q.Distinct) : NoneOpen ids q := by
  intro task htask hid
  obtain ⟨t, ht, hkept⟩ := former_task hgrows.tasks hnames htask (hpart.subset hid)
  have hclosed : t.status.isTerminal = true := by
    simpa [PlanTask.isOpen] using h t ht (hkept.taskId ▸ hid)
  simp [PlanTask.isOpen, hkept.status hclosed, hclosed]

/-- The task that is worked on is settled too. -/
theorem NoneOpen.snoc (h : NoneOpen ids p) (hnames : p.Distinct)
    (hsettled : isSettled p task = true) : NoneOpen (ids ++ [task.taskId]) p := by
  intro t ht hid
  rcases List.mem_append.mp hid with hid | hid
  · exact h t ht hid
  · rw [isSettled_of_mem hnames ht (List.mem_singleton.mp hid)] at hsettled
    simp [PlanTask.isOpen, hsettled]

theorem Shares.short (h : Shares τ work ids p) (hpos : 0 < τ.rounds)
    (hids : ∀ task ∈ p.tasks, task.taskId ∈ ids → task.isOpen = true →
      (work task.taskId).length < τ.rounds) : Short τ work p := by
  intro task htask hopen
  by_cases hid : task.taskId ∈ ids
  · exact hids task htask hid hopen
  · rw [h.idle _ hid]
    exact hpos

theorem Shares.short_of_closed (h : Shares τ work ids p) (hpos : 0 < τ.rounds)
    (hclosed : NoneOpen ids p) : Short τ work p :=
  h.short hpos fun task htask hid hopen => absurd (hclosed task htask hid) (by simp [hopen])

/-- The task that is worked on has rounds left. -/
theorem Shares.short_of_left (h : Shares τ work (ids ++ [taskId]) p) (hpos : 0 < τ.rounds)
    (hclosed : NoneOpen ids p) (hless : (work taskId).length < τ.rounds) : Short τ work p := by
  refine h.short hpos fun task htask hid hopen => ?_
  rcases List.mem_append.mp hid with hid | hid
  · exact absurd (hclosed task htask hid) (by simp [hopen])
  · rw [List.mem_singleton.mp hid]
    exact hless

/-- The tasks that were worked on come before any that is open. -/
theorem Shares.before_open {before after : List PlanTask} (h : Shares τ work ids p)
    (hclosed : NoneOpen ids p) (htasks : p.tasks = before ++ task :: after)
    (hopen : task.isOpen = true) : task.taskId ∉ ids ∧ ids <+: before.map PlanTask.taskId := by
  have hmem : task ∈ p.tasks := by
    rw [htasks]
    exact List.mem_append_right _ List.mem_cons_self
  have hout : task.taskId ∉ ids := fun hid => absurd (hclosed task hmem hid) (by simp [hopen])
  have hpart := h.part
  rw [htasks, List.map_append, List.map_cons] at hpart
  refine ⟨hout, ?_⟩
  rcases List.prefix_or_prefix_of_prefix hpart (List.prefix_append _ _) with hids | ⟨more, hmore⟩
  · exact hids
  · cases more with
    | nil =>
      rw [List.append_nil] at hmore
      exact ⟨[], by rw [List.append_nil, hmore]⟩
    | cons name more =>
      rw [← hmore, List.prefix_append_right_inj, List.cons_prefix_cons] at hpart
      refine absurd ?_ hout
      rw [← hmore, ← hpart.1]
      exact List.mem_append_right _ List.mem_cons_self

/-! ## The moves -/

theorem Worked.extend {shown : List (Nat × ModelRequest) → List Entry → Prop}
    (h : Worked τ shown work ids s) (hpart : ids ++ more <+: s.plan.tasks.map PlanTask.taskId)
    (hnames : s.plan.Distinct) : Worked τ shown work (ids ++ more) s := by
  obtain ⟨hshares, hsame⟩ := h.toShares.extend hpart hnames
  exact ⟨hshares, hsame ▸ h.calls, h.reasons⟩

/-- The first open task comes behind those that were worked on, and it has no share yet. -/
theorem taken_up (h : Worked τ Executing work ids s) (hnames : s.plan.Distinct)
    (hclosed : NoneOpen ids s.plan) (htask : s.plan.nextOpen? = some task) :
    ∃ ids', Worked τ Executing work (ids' ++ [task.taskId]) s ∧ NoneOpen ids' s.plan ∧
      work task.taskId = [] := by
  obtain ⟨hopen, before, after, htasks, hbefore⟩ := List.find?_eq_some_iff_append.mp htask
  obtain ⟨hout, more, hmore⟩ := h.toShares.before_open hclosed htasks hopen
  refine ⟨ids ++ more, ?_, fun t ht hid => ?_, h.idle _ hout⟩
  · rw [List.append_assoc]
    refine h.extend ⟨after.map PlanTask.taskId, ?_⟩ hnames
    rw [← List.append_assoc, hmore, htasks, List.map_append, List.map_cons, List.append_assoc]
    rfl
  · rw [hmore] at hid
    obtain ⟨u, hu, hsame⟩ := List.mem_map.mp hid
    have hu' : u ∈ s.plan.tasks := by
      rw [htasks]
      exact List.mem_append_left _ hu
    rw [← List.inj_on_of_nodup_map hnames hu' ht hsame]
    simpa using hbefore u hu

/-- A call for the task that is worked on. -/
theorem called {left fuel : Nat} {keep : List Call → List Call}
    {next : List Call → Station} {denied : Station}
    (h : Worked τ Executing work (ids ++ [task.taskId]) s) (hclosed : NoneOpen ids s.plan)
    (hleft : (work task.taskId).length + (left + 1) = τ.rounds)
    (hsame : ∀ t ∈ s.plan.tasks, t.taskId = task.taskId → t.description = task.description)
    (hopen : isSettled s.plan task = false) (hnames : s'.plan.Distinct)
    (hgrows : s.plan.GrowsTo s'.plan)
    (hm : Moved τ.env s s' (.ask (taskAsk τ.env task) keep next denied) c')
    (hc : Consulted τ.env (taskAsk τ.env task) keep s s')
    (hr : Recorded τ.env (.ask (taskAsk τ.env task) keep next denied) s s') :
    WorkedOff τ (.working task left fuel) s' := by
  have hbefore : s.plan.Distinct := hgrows.distinct hnames
  have hask : ∀ t ∈ s.plan.tasks, t.taskId = task.taskId →
      taskAsk τ.env t = taskAsk τ.env task := by
    intro t ht hid
    unfold taskAsk taskDirective
    rw [hid, hsame t ht hid]
  have hcharged := h.toShares.charge (s.now, requestFor τ.env s.history (taskAsk τ.env task))
    (by omega) fun t ht hid => ⟨s.history, by rw [hask t ht hid]⟩
  have hcalls := h.calls.moved hm nofun hc.calls
  rw [← h.toShares.flatMap_charge hbefore] at hcalls
  have hreasons : Reasoned (Excused τ (Function.update work task.taskId (work task.taskId ++
      [(s.now, requestFor τ.env s.history (taskAsk τ.env task))]))) s.records s.plan := by
    -- The task that is worked on is open, so it is none of those that are settled.
    refine h.reasons.mono fun t ht hsettled hexcused => ?_
    refine hexcused.congr (Function.update_of_ne (fun hid => ?_) _ _)
    rw [isSettled_of_mem hbefore ht hid] at hopen
    simp [PlanTask.isOpen, hopen] at hsettled
  refine ⟨_, ids, ⟨hcharged.grow hgrows hnames, hcalls, hr.reasoned hnames hreasons⟩,
    hclosed.grow ((List.prefix_append _ _).trans h.part) hgrows hnames, ?_, fun t ht hid => ?_⟩
  · rw [Function.update_self, List.length_append, List.length_singleton]
    omega
  · obtain ⟨u, hu, hkept⟩ := former_task hgrows.tasks hnames ht
      (hid ▸ h.part.subset (List.mem_append_right _ List.mem_cons_self))
    rw [hkept.description]
    exact hsame u hu (hkept.taskId ▸ hid)

/-- A task whose rounds are used up is given up. -/
theorem given_up {plan : Plan} (h : Reasoned (Excused τ work) s.records s.plan)
    (hused : (work task.taskId).length = τ.rounds) (hnames : s.plan.Distinct)
    (hplan : s.plan.setStatus? task.taskId .failed = .ok plan) :
    Reasoned (Excused τ work) s.records plan := by
  refine h.settled (Plan.setStatus?_names hplan) fun t' ht' => ?_
  obtain ⟨t, ht, hid, ⟨rfl, -⟩ | ⟨hopen, hall⟩⟩ := Plan.setStatus?_cases hnames hplan
  · exact Or.inl ht'
  · rcases hall t' ht' with ⟨hmem, -⟩ | rfl
    · exact Or.inl hmem
    · exact Or.inr ⟨t, ht, hopen, rfl, .exhausted rfl (hid ▸ hused)⟩

/-- What is still open when the run is cut off is dropped. -/
theorem dropped_open (h : Reasoned (Excused τ work) s.records s.plan) (hshort : Short τ work s.plan)
    (hcut : ∀ t ∈ s.plan.tasks, t.isOpen = true → τ.cut t.taskId) :
    Reasoned (Excused τ work) s.records s.plan.cancelOpen := by
  refine h.settled (Plan.cancelOpen_names s.plan) fun t' ht' => ?_
  obtain ⟨t, ht, rfl⟩ := List.mem_map.mp ht'
  unfold Plan.cancel
  by_cases hopen : t.isOpen = true
  · rw [if_pos hopen]
    exact Or.inr ⟨t, ht, hopen, rfl, .dropped rfl (hshort t ht hopen) (hcut t ht hopen)⟩
  · rw [if_neg hopen]
    exact Or.inl ht

theorem Worked.uncounted (h : Worked τ Executing work ids s) (hm : Moved env s s' m c')
    (hmark : ∀ label dest, m ≠ .mark label dest) (hu : Uncounted s s') (hr : Recorded env m s s')
    (hreasons : Reasoned (Excused τ work) s.records (m.planOf s.plan))
    (hgrows : s.plan.GrowsTo s'.plan) (hnames : s'.plan.Distinct) :
    Worked τ Executing work ids s' :=
  ⟨h.toShares.grow hgrows hnames, h.calls.uncounted hm hmark hu,
    hr.reasoned hnames hreasons⟩

theorem summary_keeps (h : ∃ work ids, Worked τ ExecutedBy work ids s ∧ s.plan.hasOpen = false)
    (hm : Moved env s s' m c') (hmark : ∀ label dest, m ≠ .mark label dest)
    (hr : Recorded env m s s') (hown : m.planOf s.plan = s.plan) (hplan : s'.plan = s.plan)
    (hnames : s'.plan.Distinct) :
    ∃ work ids, Worked τ ExecutedBy work ids s' ∧ s'.plan.hasOpen = false := by
  obtain ⟨work, ids, hworked, hclosed⟩ := h
  obtain ⟨v, htrail, hv⟩ := hm.adds hmark
  refine ⟨work, ids, ⟨hplan ▸ hworked.toShares, ?_, ?_⟩, hplan ▸ hclosed⟩
  · rw [htrail]
    exact Staged.extend hworked.calls hv.stages fun _ _ => trivial
  · exact hr.reasoned hnames (hown.symm ▸ hworked.reasons)

/-- Every move keeps to the order of the work. -/
theorem workedOff_step (hpos : 0 < τ.rounds) (hd : Decides τ.env τ.rounds s c m)
    (hcourse : OnCourse 1 c s) (h : WorkedOff τ c s) (hm : Moved τ.env s s' m c')
    (hr : Recorded τ.env m s s') (hgrows : s.plan.GrowsTo s'.plan) (hnames : s'.plan.Distinct)
    (hcut : ∀ t ∈ s.plan.tasks, t.isOpen = true → (s.spending.isTimedOut s.now = true ∨
      s.spending.modelIsSpent = true ∧ ∃ wanted keep next denied,
        m = .ask wanted keep next denied) → τ.cut t.taskId) : WorkedOff τ c' s' := by
  have hbefore : s.plan.Distinct := hgrows.distinct hnames
  cases hd with
  | begin =>
    obtain ⟨rfl, -, -⟩ := hm.mark_eq
    exact hr.reasoned hnames h
  | seeded hopen =>
    obtain ⟨rfl, rfl⟩ := hm.go_eq
    exact h
  | latePlan hclosed hlate =>
    obtain ⟨rfl, rfl⟩ := hm.go_eq
    exact h
  | @plan fuel hclosed hearly =>
    obtain rfl : c' = .executing fuel := hm.leads (P := (· = .executing fuel)) ⟨fun _ => rfl, rfl⟩
    exact hr.reasoned hnames h
  | execute =>
    -- The shares begin here, and all of them are empty.
    obtain ⟨rfl, htrail, -⟩ := hm.marker
    have hnothing := Shares.nothing τ s'.plan
    refine ⟨_, [], ⟨hnothing, ?_, hr.reasoned hnames h⟩, ?_, Or.inl fun _ _ h => ?_⟩
    · rw [htrail]
      exact .begun hcourse rfl
    · exact hnothing.short hpos fun _ _ h => absurd h List.not_mem_nil
    · exact absurd h List.not_mem_nil
  | noFuel => cases hm
  | noTask hnone =>
    obtain ⟨rfl, rfl⟩ := hm.go_eq
    obtain ⟨work, ids, hworked, -⟩ := h
    exact ⟨work, ids, hworked, hasOpen_of_noTask hnone⟩
  | lateTask htask hlate =>
    obtain ⟨rfl, rfl⟩ := hm.go_eq
    obtain ⟨work, ids, hworked, hshort, -⟩ := h
    exact ⟨work, ids, hworked, hshort, fun t ht hopen => hcut t ht hopen (Or.inl hlate)⟩
  | @task fuel task htask hearly =>
    obtain ⟨rfl, rfl⟩ := hm.go_eq
    obtain ⟨work, ids, hworked, -, hclosed | hlate⟩ := h
    · obtain ⟨ids', hworked', hclosed', hidle⟩ := taken_up hworked hnames hclosed htask
      refine ⟨work, ids', hworked', hclosed', by simp [hidle], fun t ht hid => ?_⟩
      rw [List.inj_on_of_nodup_map hnames ht (List.mem_of_find?_eq_some htask) hid]
    · exact absurd hlate (by simp [hearly])
  | settled hsettled =>
    obtain ⟨rfl, rfl⟩ := hm.go_eq
    obtain ⟨work, ids, hworked, hclosed, -, -⟩ := h
    have hall := hclosed.snoc hnames hsettled
    exact ⟨work, _, hworked, hworked.toShares.short_of_closed hpos hall, Or.inl hall⟩
  | @giveUp task fuel plan hopen hplan =>
    obtain ⟨rfl, hplan', hu⟩ := hm.replan_eq
    obtain ⟨work, ids, hworked, hclosed, hused, -⟩ := h
    have hworked' := hworked.uncounted hm nofun hu hr
      (given_up hworked.reasons hused hbefore hplan) hgrows hnames
    have hsettled : isSettled s'.plan task = true := by
      rw [hplan']
      exact isSettled_setStatus? rfl hplan
    have hall := (hclosed.grow ((List.prefix_append _ _).trans hworked.part) hgrows hnames).snoc
      hnames hsettled
    exact ⟨work, _, hworked', hworked'.toShares.short_of_closed hpos hall, Or.inl hall⟩
  | lateRound hopen hlate =>
    -- The task keeps its share and stays open; it is for the drop to settle it.
    obtain ⟨rfl, rfl⟩ := hm.go_eq
    obtain ⟨work, ids, hworked, hclosed, hleft, -⟩ := h
    exact ⟨work, _, hworked, hworked.toShares.short_of_left hpos hclosed (by omega), Or.inr hlate⟩
  | round hopen hearly =>
    obtain ⟨work, ids, hworked, hclosed, hleft, hsame⟩ := h
    rcases hm.consulted with ⟨hspent, rfl, rfl⟩ | ⟨hc, turn, rfl, -⟩
    · exact ⟨work, _, hworked, hworked.toShares.short_of_left hpos hclosed (by omega),
        fun t ht hopen => hcut t ht hopen (Or.inr ⟨hspent, _, _, _, _, rfl⟩)⟩
    · exact called hworked hclosed hleft hsame hopen hnames hgrows hm hc hr
  | drop hopen =>
    obtain ⟨rfl, hplan, hu⟩ := hm.replan_eq
    obtain ⟨work, ids, hworked, hshort, hoff⟩ := h
    refine ⟨work, ids, hworked.uncounted hm nofun hu hr
      (dropped_open hworked.reasons hshort hoff) hgrows hnames, ?_⟩
    rw [hplan]
    exact hasOpen_cancelOpen s.plan
  | noOpen hclosed =>
    obtain ⟨rfl, rfl⟩ := hm.go_eq
    obtain ⟨work, ids, hworked, -, -⟩ := h
    exact ⟨work, ids, hworked, hclosed⟩
  | close =>
    obtain ⟨rfl, htrail, hplan⟩ := hm.marker
    obtain ⟨work, ids, hworked, hclosed⟩ := h
    refine ⟨work, ids, ⟨hplan ▸ hworked.toShares, ?_, hr.reasoned hnames hworked.reasons⟩,
      hplan ▸ hclosed⟩
    rw [htrail]
    exact .begun hworked.calls trivial
  | spent hspent =>
    obtain ⟨rfl, rfl⟩ := hm.go_eq
    exact h
  | summary hunspent =>
    have hkept := summary_keeps h hm nofun hr rfl hm.plan_eq hnames
    exact hm.leads (P := fun c => WorkedOff τ c s') ⟨fun _ => hkept, hkept⟩
  | apology =>
    have hkept := summary_keeps h hm nofun hr rfl hm.tell_eq.2.1 hnames
    exact hm.leads (P := fun c => WorkedOff τ c s') hkept
  | done =>
    obtain ⟨rfl, rfl⟩ := hm.go_eq
    exact h
  | _ => exact h.elim

end Steps

/-! ## The work of a run -/

section Runs

variable {engine : Engine} {turn : UserTurn} {world : World} {fuel : Nat} {c : Station} {s : State}

/-- A task was open where the time of the run was up or a call to the model was denied. -/
def CutOff (engine : Engine) (turn : UserTurn) (world : World) (fuel : Nat) (taskId : String) :
    Prop :=
  ∃ c s, Visits engine turn world fuel c s ∧
    (∃ task ∈ s.plan.tasks, task.taskId = taskId ∧ task.isOpen = true) ∧
    (s.spending.isTimedOut s.now = true ∨ s.spending.modelIsSpent = true ∧
      ∃ wanted keep next denied,
        c.move (engine.start turn world).1 (runnerOf engine turn).rounds s =
          .ask wanted keep next denied)

/-- The terms on which a run works its tasks off. -/
def termsOf (engine : Engine) (turn : UserTurn) (world : World) (fuel : Nat) : Terms where
  env := (engine.start turn world).1
  seed := (startLedger engine turn world).plan
  rounds := (runnerOf engine turn).rounds
  cut := CutOff engine turn world fuel

theorem Visits.onCourse (h : Visits engine turn world fuel c s)
    (hmode : turn.agent.mode = .planExecute) : OnCourse 1 c s :=
  (visits_start engine turn world fuel).onwards (I := OnCourse 1)
    (start_onCourse engine turn world fuel hmode fun hzero => absurd hzero Nat.one_ne_zero)
    (fun _ _ _ _ _ h hm => onCourse_step (decides ..) h hm) h

theorem runner_planExecute (hmode : turn.agent.mode = .planExecute) :
    runnerOf engine turn = .planExecute engine.config.maxTaskRounds := by
  unfold runnerOf Runner.ofAgent
  rw [hmode]

theorem start_workedOff (hmode : turn.agent.mode = .planExecute) :
    WorkedOff (termsOf engine turn world fuel) ((runnerOf engine turn).station fuel)
      (engine.start turn world).2 := by
  have hplan : (engine.start turn world).2.plan = (startLedger engine turn world).plan :=
    start_stands.plan_eq
  have hrecords : (engine.start turn world).2.records = [] :=
    congrArg Ledger.records start_stands.ledger
  rw [runner_planExecute hmode]
  show Reasoned (Excused (termsOf engine turn world fuel) fun _ => [])
    (engine.start turn world).2.records (engine.start turn world).2.plan
  rw [hplan, hrecords]
  refine ⟨fun _ _ _ h => (by cases h), fun task htask _ => ?_, fun _ _ h => (by cases h)⟩
  by_cases hopen : task.isOpen = true
  · exact Or.inl hopen
  · exact Or.inr (.seeded htask rfl (Bool.eq_false_iff.mpr hopen))

/-- Wherever a run comes it has worked its tasks off in order, if their names are different. -/
theorem Visits.workedOff (h : Visits engine turn world fuel c s)
    (hmode : turn.agent.mode = .planExecute) (hrounds : 0 < (runnerOf engine turn).rounds) :
    s.plan.Distinct → WorkedOff (termsOf engine turn world fuel) c s := by
  refine handed_on
    (I := fun c s => s.plan.Distinct → WorkedOff (termsOf engine turn world fuel) c s)
    h (fun _ => start_workedOff hmode) fun p q hbefore hp hadv hnames => ?_
  have hvisits : Visits engine turn world fuel p.1 p.2 := hbefore
  have hmoved := (advances_moved hvisits.resting hadv).2
  have hgrows := moved_grows hmoved
  exact workedOff_step hrounds (decides ..) (hvisits.onCourse hmode) (hp (hgrows.distinct hnames))
    hmoved (hvisits.recorded hadv) hgrows hnames
    fun t ht hopen hwhy => ⟨p.1, p.2, hvisits, ⟨t, ht, rfl, hopen⟩, hwhy⟩

/-- How a task comes out for which there was nothing to settle it at first. -/
theorem task_outcome {τ : Terms} {work : String → List (Nat × ModelRequest)}
    {records : List ToolRecord} {p : Plan} {task : PlanTask}
    (h : Reasoned (Excused τ work) records p) (htask : task ∈ p.tasks)
    (hclosed : task.isOpen = false)
    (hseed : ∀ t ∈ τ.seed.tasks, t.taskId = task.taskId → t.isOpen = true) :
    task.status = (firstUpdate? records task.taskId).getD
        (if (work task.taskId).length = τ.rounds then .failed else .canceled) ∧
      (task.status = .canceled → firstUpdate? records task.taskId = none → τ.cut task.taskId) := by
  cases hfirst : firstUpdate? records task.taskId with
  | some status => exact ⟨h.told task htask status hfirst, fun _ hnone => by cases hnone⟩
  | none =>
    rcases h.untold task htask hfirst with hopen | hexcused
    · exact absurd hopen (by simp [hclosed])
    · cases hexcused with
      | seeded ht hid hsettled => exact absurd (hseed _ ht hid) (by simp [hsettled])
      | exhausted hstatus hrounds =>
        refine ⟨?_, fun hcanceled => ?_⟩
        · rw [hstatus, Option.getD_none, if_pos hrounds]
        · rw [hstatus] at hcanceled
          cases hcanceled
      | dropped hstatus hrounds hcut =>
        refine ⟨?_, fun _ _ => hcut⟩
        rw [hstatus, Option.getD_none, if_neg (Nat.ne_of_lt hrounds)]

/-- A run that works off a plan and comes through its stages makes the calls of the execution task
by task, in the order of the plan and no more than there are rounds for any of them. A task that was
not settled from the beginning comes out with the first status that was recorded for it. If there is
none, it failed when it had all of its rounds and is canceled otherwise; and the second only when
the time of the run was up or a call to the model was denied while the task was open. -/
theorem tasks_worked_off (engine : Engine) (turn : UserTurn) (world : World) (fuel : Nat)
    (hmode : turn.agent.mode = .planExecute) (hrounds : 1 ≤ engine.config.maxTaskRounds)
    (hseed : (startLedger engine turn world).plan.Distinct)
    (hids : Set.InjOn engine.supply (Set.Iio (engine.run turn world fuel).final.assembly.minted))
    (hfresh : ∀ task ∈ (startLedger engine turn world).plan.tasks, ∀ i, world.minted ≤ i →
      task.taskId ≠ IdKind.task.mint engine.supply i)
    (hok : (engine.run turn world fuel).stages = .ok ()) :
    let o := engine.run turn world fuel
    let env := (engine.start turn world).1
    let rounds := engine.config.maxTaskRounds
    ∃ before during after, ∃ work : String → List (Nat × ModelRequest),
      o.final.trail = before ++ .event (.stage "execute") :: during ++
        .event (.stage "summary") :: after ∧
      stagesShown before = ["plan"] ∧ stagesShown during = [] ∧ stagesShown after = [] ∧
      o.final.plan.Distinct ∧
      callsOf during = o.final.plan.tasks.flatMap (fun task => work task.taskId) ∧
      ∀ task ∈ o.final.plan.tasks,
        (work task.taskId).length ≤ rounds ∧
        (∀ call ∈ work task.taskId, ∃ history,
          call.2 = requestFor env history (taskAsk env task)) ∧
        ((∀ t ∈ (startLedger engine turn world).plan.tasks, t.taskId = task.taskId →
            t.isOpen = true) →
          task.status = (firstUpdate? o.final.records task.taskId).getD
            (if (work task.taskId).length = rounds then .failed else .canceled) ∧
          (task.status = .canceled → firstUpdate? o.final.records task.taskId = none →
            CutOff engine turn world fuel task.taskId)) := by
  intro o env rounds
  have hnames := final_distinct hok hseed hids hfresh
  have hrunner : (runnerOf engine turn).rounds = rounds := by
    rw [runner_planExecute hmode]
    rfl
  obtain ⟨work, ids, hworked, hclosed⟩ :=
    (visits_done hok).workedOff hmode (hrunner.symm ▸ hrounds) hnames
  obtain ⟨more, hmore⟩ := hworked.part
  have hall := hworked.toShares.extend ⟨[], by rw [List.append_nil, hmore]⟩ hnames
  obtain ⟨p, u, ⟨before, during, hbefore, hduring, hcalls, rfl⟩, hu, -, htrail⟩ := hworked.calls
  obtain ⟨v, hfinal, hv, -⟩ := final_added engine turn world fuel
  obtain ⟨es, texts, -, hledger, -⟩ := final_eq engine turn world fuel
  have hplan : o.final.plan = (afterStages engine turn world fuel).plan :=
    congrArg Ledger.plan hledger
  have hrecords : o.final.records = (afterStages engine turn world fuel).records :=
    congrArg Ledger.records hledger
  refine ⟨before, during, u ++ v, work, ?_, hbefore.stages_eq, hduring, ?_, hplan ▸ hnames, ?_,
    fun task htask => ?_⟩
  · rw [hfinal, htrail]
    simp
  · rw [stagesShown_append, hu, hv]
    rfl
  · rw [hplan, hcalls, ← hall.2, hmore, List.flatMap_map]
  · rw [hplan] at htask
    refine ⟨hrunner ▸ hworked.most _, hworked.made task htask, fun hopen => ?_⟩
    have hsettled : task.isOpen = false := by
      simpa using List.any_eq_false.mp hclosed task htask
    rw [hrecords, ← hrunner]
    exact task_outcome hworked.reasons htask hsettled hopen

end Runs

/-- A turn with three open tasks, whose agent may ask the model twice. -/
def threeTasks : UserTurn :=
  limited { Budget.unlimited with model := { Budget.unlimited.model with maxCalls := 2 } }
    { firstTurn .planExecute with plan := some ⟨"plan_1", [⟨"look", "Look it up", .init⟩,
      ⟨"check", "Check it", .init⟩, ⟨"write", "Write it down", .init⟩]⟩ }

/-- The first answer settles the task that is worked on and the second settles nothing. -/
def oneOutcome : List Reply :=
  [Script.ofChunks (Script.calls [("c1", PlanTool.updateTask.name,
      .obj [("status", .str "completed"), ("task_id", .str "look")])]) .done,
    Script.ofChunks (Script.texts ["Not yet"]) .done]

/-- With one round for each of them, the first task is completed by the model, the second uses its
round up, and the third is cut off from the model. -/
theorem three_tasks_come_out :
    ((onceEach oneOutcome).run threeTasks (.new 1) 4).stages = .ok () ∧
    ((onceEach oneOutcome).run threeTasks (.new 1) 4).final.plan.tasks =
      [⟨"look", "Look it up", .completed⟩, ⟨"check", "Check it", .failed⟩,
        ⟨"write", "Write it down", .canceled⟩] ∧
    CutOff (onceEach oneOutcome) threeTasks (.new 1) 4 "write" ∧
    ∃ before during after, ∃ work : String → List (Nat × ModelRequest),
      ((onceEach oneOutcome).run threeTasks (.new 1) 4).final.trail = before ++
        .event (.stage "execute") :: during ++ .event (.stage "summary") :: after ∧
      callsOf during = work "look" ++ work "check" ++ work "write" ∧
      (work "look").length ≤ 1 ∧ (work "check").length = 1 ∧ (work "write").length ≠ 1 := by
  have hok : ((onceEach oneOutcome).run threeTasks (.new 1) 4).stages = .ok () := by
    decide +kernel
  have hminted : ((onceEach oneOutcome).run threeTasks (.new 1) 4).final.assembly.minted = 4 := by
    decide +kernel
  have htasks : ((onceEach oneOutcome).run threeTasks (.new 1) 4).final.plan.tasks =
      [⟨"look", "Look it up", .completed⟩, ⟨"check", "Check it", .failed⟩,
        ⟨"write", "Write it down", .canceled⟩] := by
    decide +kernel
  have hcheck : firstUpdate? ((onceEach oneOutcome).run threeTasks (.new 1) 4).final.records
      "check" = none := by decide +kernel
  have hwrite : firstUpdate? ((onceEach oneOutcome).run threeTasks (.new 1) 4).final.records
      "write" = none := by decide +kernel
  have hseeds : ∀ task ∈ (startLedger (onceEach oneOutcome) threeTasks (.new 1)).plan.tasks,
      task.isOpen = true ∧ task.taskId.toList.head? ≠ some 't' := by decide
  have hmints (i : Nat) :
      (IdKind.task.mint (onceEach oneOutcome).supply i).toList.head? = some 't' := by
    simp [IdKind.mint, IdKind.withUuid, IdKind.tag]
  have huuids : ∀ i < 4, ∀ j < 4, Uuid.timed 0 i = Uuid.timed 0 j → i = j := by decide
  have hids : Set.InjOn (onceEach oneOutcome).supply (Set.Iio
      ((onceEach oneOutcome).run threeTasks (.new 1) 4).final.assembly.minted) := by
    rw [hminted]
    exact fun i hi j hj hij => huuids i hi j hj hij
  obtain ⟨before, during, after, work, htrail, -, -, -, -, hcalls, hall⟩ :=
    tasks_worked_off (onceEach oneOutcome) threeTasks (.new 1) 4 rfl (Nat.le_refl 1) (by decide)
      hids (fun task htask i _ hid => (hseeds task htask).2 (hid ▸ hmints i)) hok
  rw [htasks] at hcalls hall
  have hopen (taskId : String) : ∀ t ∈ (startLedger (onceEach oneOutcome) threeTasks
      (.new 1)).plan.tasks, t.taskId = taskId → t.isOpen = true := fun t ht _ => (hseeds t ht).1
  obtain ⟨hlook, -, -⟩ := hall ⟨"look", "Look it up", .completed⟩ (by simp)
  obtain ⟨-, -, hfailed⟩ := hall ⟨"check", "Check it", .failed⟩ (by simp)
  obtain ⟨-, -, hdropped⟩ := hall ⟨"write", "Write it down", .canceled⟩ (by simp)
  obtain ⟨hfailed, -⟩ := hfailed (hopen _)
  obtain ⟨hcanceled, hcut⟩ := hdropped (hopen _)
  rw [hcheck, Option.getD_none] at hfailed
  rw [hwrite, Option.getD_none] at hcanceled
  change TaskStatus.failed = if (work "check").length = 1 then .failed else .canceled at hfailed
  change TaskStatus.canceled = if (work "write").length = 1 then .failed else .canceled
    at hcanceled
  refine ⟨hok, htasks, hcut rfl hwrite, before, during, after, work, htrail, ?_, hlook, ?_, ?_⟩
  · rw [hcalls]
    simp
  · by_contra hne
    rw [if_neg hne] at hfailed
    cases hfailed
  · intro heq
    rw [if_pos heq] at hcanceled
    cases hcanceled

end AgentRun.Run
