import AgentRun.Proofs.Ending
import AgentRun.Proofs.PlanRecords

/-!
# Names and reasons

Two things follow from how the records tell what becomes of a plan. The tasks that are added have
names that are minted one after another (`NamedFrom`), so all names are different if those of the
first tasks are. And a task that is settled has the status that was the first to be recorded for it,
or there is a reason for its status that is none of the model's (`Reasoned`).
-/

namespace AgentRun

/-! ## The names of the tasks -/

/-- The names that a plan has when its tasks were added one after another: those of its first tasks
and then minted names, in the order in which they were minted. -/
structure NamedFrom (supply : Supply) (least : Nat) (first : List String) (n : Nat) (p : Plan) :
    Prop where
  started : least ≤ n
  minted : ∃ places : List Nat,
    p.tasks.map PlanTask.taskId = first ++ places.map (IdKind.task.mint supply) ∧
      places.Pairwise (· < ·) ∧ ∀ i ∈ places, least ≤ i ∧ i < n

section Named

variable {supply : Supply} {least n m : Nat} {first : List String} {p q : Plan} {r : ToolRecord}
  {rs : List ToolRecord}

theorem Plan.mark_names (taskId : String) (status : TaskStatus) (ts : List PlanTask) :
    (Plan.mark taskId status ts).map PlanTask.taskId = ts.map PlanTask.taskId := by
  induction ts with
  | nil => rfl
  | cons t ts ih =>
    unfold Plan.mark
    split
    · rfl
    · rw [List.map_cons, List.map_cons, ih]

theorem Plan.setStatus?_names {taskId : String} {status : TaskStatus}
    (h : p.setStatus? taskId status = .ok q) :
    q.tasks.map PlanTask.taskId = p.tasks.map PlanTask.taskId := by
  unfold Plan.setStatus? at h
  split at h
  · cases h
  · split at h
    · split at h
      · rw [← Except.ok.inj h]
      · cases h
    · rw [← Except.ok.inj h]
      exact Plan.mark_names taskId status p.tasks

theorem Plan.cancelOpen_names (p : Plan) :
    p.cancelOpen.tasks.map PlanTask.taskId = p.tasks.map PlanTask.taskId := by
  unfold Plan.cancelOpen
  rw [List.map_map]
  exact List.map_congr_left fun t _ => (Plan.cancel_kept t).taskId

namespace NamedFrom

theorem start (p : Plan) (h : least ≤ n) :
    NamedFrom supply least (p.tasks.map PlanTask.taskId) n p :=
  ⟨h, [], by simp, .nil, fun _ h => absurd h List.not_mem_nil⟩

theorem later (h : NamedFrom supply least first n p) (hle : n ≤ m) :
    NamedFrom supply least first m p := by
  obtain ⟨hstarted, places, hnames, hsorted, hplaces⟩ := h
  refine ⟨Nat.le_trans hstarted hle, places, hnames, hsorted, fun i hi => ?_⟩
  exact ⟨(hplaces i hi).1, Nat.lt_of_lt_of_le (hplaces i hi).2 hle⟩

theorem congr (h : NamedFrom supply least first n p)
    (hnames : q.tasks.map PlanTask.taskId = p.tasks.map PlanTask.taskId) :
    NamedFrom supply least first n q := by
  refine ⟨h.started, ?_⟩
  rw [hnames]
  exact h.minted

/-- Tasks are added under the names that are minted next. -/
theorem added (h : NamedFrom supply least first n p) (new : List PlanTask)
    (htasks : q.tasks = p.tasks ++ new)
    (hnew : new.map PlanTask.taskId =
      (List.range' n new.length).map (IdKind.task.mint supply)) :
    NamedFrom supply least first (n + new.length) q := by
  obtain ⟨hstarted, places, hnames, hsorted, hplaces⟩ := h
  refine ⟨by omega, places ++ List.range' n new.length, ?_, ?_, fun i hi => ?_⟩
  · rw [htasks, List.map_append, hnames, hnew, List.map_append, List.append_assoc]
  · refine List.pairwise_append.mpr ⟨hsorted, List.pairwise_lt_range', fun i hi j hj => ?_⟩
    have hlt := (hplaces i hi).2
    have hge := (List.mem_range'_1.mp hj).1
    omega
  · rcases List.mem_append.mp hi with hi | hi
    · have hplace := hplaces i hi
      omega
    · have hplace := List.mem_range'_1.mp hi
      omega

theorem recorded (h : NamedFrom supply least first n p) (hr : RecordedBy supply r p n q m) :
    NamedFrom supply least first m q := by
  cases hr with
  | unchanged => exact h
  | added _ _ hnew => exact h.added _ rfl hnew
  | updated _ hset => exact h.congr (Plan.setStatus?_names hset)

theorem recordedAll (h : NamedFrom supply least first n p)
    (hrs : RecordedAll supply rs p n q m) : NamedFrom supply least first m q := by
  induction hrs with
  | nil => exact h
  | cons hr _ ih => exact ih (h.recorded hr)

/-- The names are different if no UUID is supplied twice and none of them was there at first. -/
theorem distinct (h : NamedFrom supply least first n p) (hfirst : first.Nodup)
    (hids : Set.InjOn supply (Set.Iio n))
    (hfresh : ∀ name ∈ first, ∀ i, least ≤ i → name ≠ IdKind.task.mint supply i) :
    p.Distinct := by
  obtain ⟨-, places, hnames, hsorted, hplaces⟩ := h
  unfold Plan.Distinct
  rw [hnames]
  refine List.nodup_append.mpr ⟨hfirst, ?_, fun name hname other hother => ?_⟩
  · refine List.Nodup.map_on (fun i hi j hj hij => ?_) (hsorted.imp Nat.ne_of_lt)
    exact Run.mint_injOn hids (hplaces i hi).2 (hplaces j hj).2 hij
  · obtain ⟨i, hi, rfl⟩ := List.mem_map.mp hother
    exact hfresh name hname i (hplaces i hi).1

end NamedFrom

end Named

/-! ## Why a task is settled -/

/-- A task has the status that was the first to be recorded for it. If there is none, the task is
open or there is another reason for its status. -/
structure Reasoned (reason : PlanTask → Prop) (records : List ToolRecord) (p : Plan) : Prop where
  told : ∀ t ∈ p.tasks, ∀ status, firstUpdate? records t.taskId = some status → t.status = status
  untold : ∀ t ∈ p.tasks, firstUpdate? records t.taskId = none → t.isOpen = true ∨ reason t
  known : ∀ taskId status, firstUpdate? records taskId = some status →
    taskId ∈ p.tasks.map PlanTask.taskId

section Reasons

variable {reason reason' : PlanTask → Prop} {records rs : List ToolRecord} {r : ToolRecord}
  {p q : Plan} {supply : Supply} {n m : Nat} {t : PlanTask} {taskId : String} {status : TaskStatus}

theorem PlanTask.isOpen_iff : t.isOpen = true ↔ t.status.isTerminal = false := by
  simp [isOpen]

theorem mem_mark {ts : List PlanTask} {t' : PlanTask} (hnames : (ts.map PlanTask.taskId).Nodup)
    (h : t' ∈ Plan.mark taskId status ts) : t' ∈ ts ∧ t'.taskId ≠ taskId ∨
      ∃ t ∈ ts, t.taskId = taskId ∧ t' = { t with status := status } := by
  induction ts with
  | nil => cases h
  | cons t ts ih =>
    rw [List.map_cons, List.nodup_cons] at hnames
    unfold Plan.mark at h
    by_cases ht : t.taskId = taskId
    · rw [if_pos ht] at h
      rcases List.mem_cons.mp h with rfl | h
      · exact Or.inr ⟨t, List.mem_cons_self, ht, rfl⟩
      · refine Or.inl ⟨List.mem_cons_of_mem _ h, fun hid => hnames.1 ?_⟩
        rw [ht, ← hid]
        exact List.mem_map_of_mem h
    · rw [if_neg ht] at h
      rcases List.mem_cons.mp h with rfl | h
      · exact Or.inl ⟨List.mem_cons_self, ht⟩
      · rcases ih hnames.2 h with ⟨hmem, hid⟩ | ⟨u, hu, hid, rfl⟩
        · exact Or.inl ⟨List.mem_cons_of_mem _ hmem, hid⟩
        · exact Or.inr ⟨u, List.mem_cons_of_mem _ hu, hid, rfl⟩

/-- A status is set for a task that has it already or is open. -/
theorem Plan.setStatus?_cases (hnames : p.Distinct) (h : p.setStatus? taskId status = .ok q) :
    ∃ t ∈ p.tasks, t.taskId = taskId ∧ (q = p ∧ t.status = status ∨ t.isOpen = true ∧
      ∀ t' ∈ q.tasks, t' ∈ p.tasks ∧ t'.taskId ≠ taskId ∨ t' = { t with status := status }) := by
  unfold Plan.setStatus? at h
  cases htask : p.task? taskId with
  | none => simp [htask] at h
  | some t =>
    have hmem : t ∈ p.tasks := List.mem_of_find?_eq_some htask
    have hid : t.taskId = taskId := by simpa using List.find?_some htask
    refine ⟨t, hmem, hid, ?_⟩
    simp only [htask] at h
    split at h
    · split at h
      · rename_i hstatus
        exact Or.inl ⟨(Except.ok.inj h).symm, hstatus⟩
      · cases h
    · rename_i hopen
      refine Or.inr ⟨PlanTask.isOpen_iff.mpr (Bool.eq_false_iff.mpr hopen), fun t' ht' => ?_⟩
      rw [← Except.ok.inj h] at ht'
      rcases mem_mark hnames ht' with hother | ⟨u, hu, hid', rfl⟩
      · exact Or.inl hother
      · have hsame : u = t := List.inj_on_of_nodup_map hnames hu hmem (hid'.trans hid.symm)
        exact Or.inr (by rw [hsame])

namespace Reasoned

theorem mono (h : Reasoned reason records p)
    (hmono : ∀ t ∈ p.tasks, t.isOpen = false → reason t → reason' t) :
    Reasoned reason' records p := by
  refine ⟨h.told, fun t ht hnone => ?_, h.known⟩
  by_cases hopen : t.isOpen = true
  · exact Or.inl hopen
  · exact (h.untold t ht hnone).imp id (hmono t ht (Bool.eq_false_iff.mpr hopen))

/-- Nothing was recorded for a task that is open. -/
theorem open_untold (h : Reasoned reason records p) (ht : t ∈ p.tasks) (hopen : t.isOpen = true) :
    firstUpdate? records t.taskId = none := by
  cases hfirst : firstUpdate? records t.taskId with
  | none => rfl
  | some status =>
    have hterminal := firstUpdate?_terminal hfirst
    rw [← h.told t ht status hfirst] at hterminal
    simp [PlanTask.isOpen, hterminal] at hopen

/-- A run may settle open tasks for a reason of its own. -/
theorem settled (h : Reasoned reason records p)
    (hnames : q.tasks.map PlanTask.taskId = p.tasks.map PlanTask.taskId)
    (htasks : ∀ t' ∈ q.tasks, t' ∈ p.tasks ∨
      ∃ t ∈ p.tasks, t.isOpen = true ∧ t'.taskId = t.taskId ∧ reason t') :
    Reasoned reason records q := by
  refine ⟨fun t' ht' status hfirst => ?_, fun t' ht' hnone => ?_, fun taskId status hfirst => ?_⟩
  · rcases htasks t' ht' with hmem | ⟨t, ht, hopen, hid, -⟩
    · exact h.told t' hmem status hfirst
    · rw [hid, h.open_untold ht hopen] at hfirst
      cases hfirst
  · rcases htasks t' ht' with hmem | ⟨t, ht, hopen, hid, hreason⟩
    · exact h.untold t' hmem hnone
    · exact Or.inr hreason
  · rw [hnames]
    exact h.known taskId status hfirst

/-- An update that is accepted settles its task, or the task has its status already. -/
theorem updated (h : Reasoned reason records p) (hnames : p.Distinct)
    (hr : r.update? = some (taskId, status)) (hset : p.setStatus? taskId status = .ok q) :
    Reasoned reason (records ++ [r]) q := by
  obtain ⟨t, ht, rfl, hcases⟩ := Plan.setStatus?_cases hnames hset
  have hothers {other : String} (hother : other ≠ t.taskId) :
      firstUpdate? (records ++ [r]) other = firstUpdate? records other := by
    rw [firstUpdate?_updated hr, if_neg hother, Option.or_none]
  -- If the task was settled already, then with this status, so an earlier update told the same.
  have hthis : firstUpdate? (records ++ [r]) t.taskId = some status := by
    rw [firstUpdate?_updated hr, if_pos rfl]
    rcases hcases with ⟨-, hstatus⟩ | ⟨hopen, -⟩
    · cases hearlier : firstUpdate? records t.taskId with
      | none => rfl
      | some earlier => rw [Option.some_or, ← h.told t ht earlier hearlier, hstatus]
    · rw [h.open_untold ht hopen, Option.none_or]
  have hstatus : ∀ t' ∈ q.tasks, t'.taskId = t.taskId ∧ t'.status = status ∨
      t' ∈ p.tasks ∧ t'.taskId ≠ t.taskId := by
    intro t' ht'
    rcases hcases with ⟨rfl, hstatus⟩ | ⟨-, hall⟩
    · by_cases hid : t'.taskId = t.taskId
      · exact Or.inl ⟨hid, by rw [List.inj_on_of_nodup_map hnames ht' ht hid, hstatus]⟩
      · exact Or.inr ⟨ht', hid⟩
    · rcases hall t' ht' with hother | rfl
      · exact Or.inr hother
      · exact Or.inl ⟨rfl, rfl⟩
  refine ⟨fun t' ht' other hfirst => ?_, fun t' ht' hnone => ?_, fun other status' hfirst => ?_⟩
  · rcases hstatus t' ht' with ⟨hid, hset⟩ | ⟨hmem, hid⟩
    · rw [hid, hthis] at hfirst
      rw [hset, Option.some.inj hfirst]
    · rw [hothers hid] at hfirst
      exact h.told t' hmem other hfirst
  · rcases hstatus t' ht' with ⟨hid, -⟩ | ⟨hmem, hid⟩
    · rw [hid, hthis] at hnone
      cases hnone
    · rw [hothers hid] at hnone
      exact h.untold t' hmem hnone
  · rw [Plan.setStatus?_names hset]
    by_cases hid : other = t.taskId
    · rw [hid]
      exact List.mem_map_of_mem ht
    · rw [hothers hid] at hfirst
      exact h.known other status' hfirst

/-- Tasks that are added are open, and nothing was recorded for them. -/
theorem added {new : List PlanTask} (h : Reasoned reason records p)
    (hopen : ∀ t ∈ new, t.isOpen = true)
    (hnames : Plan.Distinct { p with tasks := p.tasks ++ new }) :
    Reasoned reason records { p with tasks := p.tasks ++ new } := by
  have hnew : ∀ t ∈ new, ∀ status, firstUpdate? records t.taskId ≠ some status := by
    intro t ht status hfirst
    have hknown := h.known t.taskId status hfirst
    unfold Plan.Distinct at hnames
    rw [List.map_append] at hnames
    exact (List.nodup_append.mp hnames).2.2 _ hknown _ (List.mem_map_of_mem ht) rfl
  refine ⟨fun t ht status hfirst => ?_, fun t ht hnone => ?_, fun taskId status hfirst => ?_⟩
  · rcases List.mem_append.mp ht with ht | ht
    · exact h.told t ht status hfirst
    · exact absurd hfirst (hnew t ht status)
  · rcases List.mem_append.mp ht with ht | ht
    · exact h.untold t ht hnone
    · exact Or.inl (hopen t ht)
  · rw [List.map_append]
    exact List.mem_append_left _ (h.known taskId status hfirst)

/-- A record without an update makes no difference. -/
theorem unchanged (h : Reasoned reason records p) (hr : r.update? = none) :
    Reasoned reason (records ++ [r]) p where
  told := fun t ht status hfirst => h.told t ht status (firstUpdate?_unchanged hr ▸ hfirst)
  untold := fun t ht hnone => h.untold t ht (firstUpdate?_unchanged hr ▸ hnone)
  known := fun taskId status hfirst =>
    h.known taskId status (firstUpdate?_unchanged hr ▸ hfirst)

theorem recorded (h : Reasoned reason records p) (hnames : q.Distinct)
    (hr : RecordedBy supply r p n q m) : Reasoned reason (records ++ [r]) q := by
  cases hr with
  | unchanged hr => exact h.unchanged hr
  | added hr hopen _ => exact (h.added hopen hnames).unchanged hr
  | updated hr hset =>
    refine h.updated ?_ hr hset
    unfold Plan.Distinct
    rw [← Plan.setStatus?_names hset]
    exact hnames

end Reasoned

theorem RecordedBy.grows (h : RecordedBy supply r p n q m) : p.GrowsTo q := by
  cases h with
  | unchanged => exact .refl p
  | added => exact ⟨rfl, .append _ _⟩
  | updated _ hset => exact Plan.setStatus?_grows hset

theorem RecordedAll.grows (h : RecordedAll supply rs p n q m) : p.GrowsTo q := by
  induction h with
  | nil => exact .refl _
  | cons hr _ ih => exact hr.grows.trans ih

/-- Calls keep to the reasons that tasks are settled for, whatever they record. -/
theorem Reasoned.recordedAll (h : Reasoned reason records p) (hnames : q.Distinct)
    (hrs : RecordedAll supply rs p n q m) : Reasoned reason (records ++ rs) q := by
  induction hrs generalizing records with
  | nil => rwa [List.append_nil]
  | @cons r rs p p' q n n' m hr hrest ih =>
    have hnext := ih (h.recorded (hrest.grows.distinct hnames) hr) hnames
    rwa [List.append_assoc] at hnext

end Reasons

/-! ## The plan of a run -/

namespace Run

section Plans

variable {env : Env} {rounds : Nat} {s : State} {c : Station} {m : Move}

/-- What a run sets of its own accord keeps the names. -/
theorem planOf_names (hd : Decides env rounds s c m) :
    (m.planOf s.plan).tasks.map PlanTask.taskId = s.plan.tasks.map PlanTask.taskId := by
  cases m with
  | replan plan next =>
    cases hd with
    | giveUp hopen hplan => exact Plan.setStatus?_names hplan
    | drop hopen => exact Plan.cancelOpen_names s.plan
  | _ => rfl

end Plans

variable {engine : Engine} {turn : UserTurn} {world : World} {fuel : Nat} {c c' : Station}
  {s s' : State}

theorem Visits.recorded (h : Visits engine turn world fuel c s)
    (hadv : Advances (engine.start turn world).1 (runnerOf engine turn).rounds (c, s) (c', s')) :
    Recorded (engine.start turn world).1
      (c.move (engine.start turn world).1 (runnerOf engine turn).rounds s) s s' :=
  (move_recorded h.resting _).of_run hadv

/-- Wherever a run comes, its tasks are named as they were at first or by names minted in order. -/
theorem Visits.named (h : Visits engine turn world fuel c s) :
    NamedFrom engine.supply world.minted
      ((startLedger engine turn world).plan.tasks.map PlanTask.taskId) s.assembly.minted
      s.plan := by
  refine handed_on (I := fun _ s => NamedFrom engine.supply world.minted
    ((startLedger engine turn world).plan.tasks.map PlanTask.taskId) s.assembly.minted s.plan)
    h ?_ fun p q hbefore hp hadv => ?_
  · have hplan : (engine.start turn world).2.plan = (startLedger engine turn world).plan :=
      start_stands.plan_eq
    have hminted : (engine.start turn world).2.assembly.minted = world.minted + 2 :=
      congrArg Assembly.minted start_stands.assembly
    rw [hplan]
    refine .start _ ?_
    show world.minted ≤ (engine.start turn world).2.assembly.minted
    omega
  · have hvisits : Visits engine turn world fuel p.1 p.2 := hbefore
    obtain ⟨rs, n, -, hle, hrs⟩ := hvisits.recorded hadv
    exact ((hp.later hle).congr (planOf_names (decides ..))).recordedAll hrs

theorem visits_done (hok : (engine.run turn world fuel).stages = .ok ()) :
    Visits engine turn world fuel .done (afterStages engine turn world fuel) := by
  rcases (visits_start engine turn world fuel).ends with ⟨hpasses, -⟩ | ⟨_, _, _, -, -, hhalt⟩
  · exact hpasses
  · rw [hok] at hhalt
    cases hhalt

/-- The tasks of a run that came through its stages have different names if those that it began
with had, no UUID was supplied twice, and none of the names that could be minted was there
before. -/
theorem final_distinct (hok : (engine.run turn world fuel).stages = .ok ())
    (hseed : (startLedger engine turn world).plan.Distinct)
    (hids : Set.InjOn engine.supply (Set.Iio (engine.run turn world fuel).final.assembly.minted))
    (hfresh : ∀ task ∈ (startLedger engine turn world).plan.tasks, ∀ i, world.minted ≤ i →
      task.taskId ≠ IdKind.task.mint engine.supply i) :
    (afterStages engine turn world fuel).plan.Distinct := by
  have hdone := visits_done hok
  obtain ⟨k, p⟩ := hdone.resting
  have hminted : (afterStages engine turn world fuel).assembly.minted = k :=
    congrArg Assembly.minted p.assembly
  have hle : k ≤ (engine.run turn world fuel).final.assembly.minted := (final_raises p).1
  -- The names were minted before the run ended, so their UUIDs are among those it was given.
  refine hdone.named.distinct hseed (hids.mono (Set.Iio_subset_Iio (by omega))) ?_
  intro name hname i hi
  obtain ⟨task, htask, rfl⟩ := List.mem_map.mp hname
  exact hfresh task htask i hi

end Run

end AgentRun
