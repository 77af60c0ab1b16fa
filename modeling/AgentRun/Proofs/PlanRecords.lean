import AgentRun.Proofs.BlockOrder

/-!
# What the records tell of a plan

A run writes every call down with its result, so its records tell which outcomes the model recorded
for which tasks (`ToolRecord.update?`). Between its own changes of the plan a run leaves it to its
calls, and these change it as their records tell and in no other way (`Recorded`).
-/

namespace AgentRun

/-- The task and the status that an accepted call recorded. -/
def ToolRecord.update? (r : ToolRecord) : Option (String × TaskStatus) :=
  if PlanTool.ofName? r.toolName = some .updateTask then
    (PlanTool.outcome r.arguments).toOption.filter fun o =>
      r.result = (PlanChange.updated o.1 o.2).result
  else none

/-- The status that was the first to be recorded for a task. -/
def firstUpdate? (records : List ToolRecord) (taskId : String) : Option TaskStatus :=
  (records.filterMap ToolRecord.update?).lookup taskId

section Updates

variable {r : ToolRecord} {records : List ToolRecord} {taskId : String} {status : TaskStatus}

theorem ToolRecord.update?_eq_some : r.update? = some (taskId, status) ↔
    PlanTool.ofName? r.toolName = some .updateTask ∧
      PlanTool.outcome r.arguments = .ok (taskId, status) ∧
      r.result = (PlanChange.updated taskId status).result := by
  unfold update?
  by_cases htool : PlanTool.ofName? r.toolName = some .updateTask
  · cases hout : PlanTool.outcome r.arguments with
    | error e => simp [htool, Except.toOption]
    | ok o =>
      rw [if_pos htool]
      simp only [Except.toOption, Option.filter_eq_some_iff, Option.some.injEq, decide_eq_true_eq,
        htool, true_and, Except.ok.injEq]
  · simp [htool]

/-- A call of no tool for outcomes records none. -/
theorem ToolRecord.update?_of_tool (h : PlanTool.ofName? r.toolName ≠ some .updateTask) :
    r.update? = none := if_neg h

/-- A call that failed records nothing. -/
theorem ToolRecord.update?_of_failure {message : String} (h : r.result = failureResult message) :
    r.update? = none := by
  cases hupdate : r.update? with
  | none => rfl
  | some o =>
    obtain ⟨taskId, status⟩ := o
    obtain ⟨-, -, hresult⟩ := ToolRecord.update?_eq_some.mp hupdate
    rw [h] at hresult
    simp [failureResult, PlanChange.result] at hresult

theorem PlanTool.outcome_terminal {args : Json} (h : PlanTool.outcome args = .ok (taskId, status)) :
    status.isTerminal = true := by
  unfold outcome at h
  split at h
  · cases h
  · split at h
    · cases h
    · rename_i hstatus
      obtain ⟨-, rfl⟩ := Prod.mk.inj (Except.ok.inj h)
      exact (Option.filter_eq_some_iff.mp hstatus).2

/-- Only final statuses are recorded. -/
theorem firstUpdate?_terminal (h : firstUpdate? records taskId = some status) :
    status.isTerminal = true := by
  obtain ⟨l₁, l₂, heq, -⟩ := List.lookup_eq_some_iff.mp h
  have hmem : (taskId, status) ∈ records.filterMap ToolRecord.update? := by
    rw [heq]
    exact List.mem_append_right _ List.mem_cons_self
  obtain ⟨r, -, hr⟩ := List.mem_filterMap.mp hmem
  exact PlanTool.outcome_terminal (ToolRecord.update?_eq_some.mp hr).2.1

theorem firstUpdate?_unchanged (h : r.update? = none) :
    firstUpdate? (records ++ [r]) taskId = firstUpdate? records taskId := by
  unfold firstUpdate?
  rw [List.filterMap_append, List.filterMap_cons_none h, List.filterMap_nil, List.append_nil]

/-- An update counts for its task if there is none before it. -/
theorem firstUpdate?_updated (h : r.update? = some (taskId, status)) (other : String) :
    firstUpdate? (records ++ [r]) other =
      (firstUpdate? records other).or (if other = taskId then some status else none) := by
  unfold firstUpdate?
  rw [List.filterMap_append, List.filterMap_cons_some h, List.filterMap_nil, List.lookup_append]
  by_cases hid : other = taskId
  · simp [hid]
  · simp [List.lookup_cons, beq_false_of_ne hid, hid]

end Updates

/-! ## What a call makes of a plan -/

/-- What a call makes of a plan and of the count of minted names, as its record tells. -/
inductive RecordedBy (supply : Supply) (r : ToolRecord) (p : Plan) (n : Nat) : Plan → Nat → Prop
  | unchanged (h : r.update? = none) : RecordedBy supply r p n p n
  | added {new : List PlanTask} (h : r.update? = none) (hopen : ∀ t ∈ new, t.isOpen = true)
      (hnames : new.map PlanTask.taskId =
        (List.range' n new.length).map (IdKind.task.mint supply)) :
      RecordedBy supply r p n { p with tasks := p.tasks ++ new } (n + new.length)
  | updated {taskId : String} {status : TaskStatus} {q : Plan}
      (h : r.update? = some (taskId, status)) (hset : p.setStatus? taskId status = .ok q) :
      RecordedBy supply r p n q n

/-- The same of calls one after another. -/
inductive RecordedAll (supply : Supply) : List ToolRecord → Plan → Nat → Plan → Nat → Prop
  | nil (p : Plan) (n : Nat) : RecordedAll supply [] p n p n
  | cons {r : ToolRecord} {rs : List ToolRecord} {p p' q : Plan} {n n' m : Nat}
      (h : RecordedBy supply r p n p' n') (hrest : RecordedAll supply rs p' n' q m) :
      RecordedAll supply (r :: rs) p n q m

theorem PlanTool.addTasksTo_names (p : Plan) (supply : Supply) (n : Nat) (ds : List String) :
    ∃ new : List PlanTask, new.length = ds.length ∧ (∀ t ∈ new, t.isOpen = true) ∧
      new.map PlanTask.taskId = (List.range' n new.length).map (IdKind.task.mint supply) ∧
      addTasksTo p (fun i => IdKind.task.mint supply (n + i)) ds =
        (new.map PlanTask.taskId, { p with tasks := p.tasks ++ new }) := by
  refine ⟨ds.zipIdx.map fun o => ⟨IdKind.task.mint supply (n + o.2), o.1, .init⟩,
    ?_, ?_, ?_, rfl⟩
  · rw [List.length_map, List.length_zipIdx]
  · intro t ht
    obtain ⟨d, -, rfl⟩ := List.mem_map.mp ht
    rfl
  · have hplaces : ds.zipIdx.map ((n + ·) ∘ Prod.snd) = List.range' n ds.length := by
      rw [← List.map_map, List.zipIdx_map_snd, List.map_add_range']
      rfl
    rw [List.length_map, List.length_zipIdx, ← hplaces, List.map_map, List.map_map]
    rfl

/-- A plan tool that is applied is recorded by the result of its call. -/
theorem PlanTool.apply_recorded {tool : PlanTool} {supply : Supply} {r : ToolRecord} {p q : Plan}
    {n : Nat} {change : PlanChange} (htool : PlanTool.ofName? r.toolName = some tool)
    (h : tool.apply r.arguments (fun i => IdKind.task.mint supply (n + i)) p = .ok (change, q))
    (hresult : r.result = change.result) : RecordedBy supply r p n q (n + change.minted) := by
  cases tool with
  | addTasks =>
    have hnone : r.update? = none := ToolRecord.update?_of_tool (by simp [htool])
    simp only [apply] at h
    cases hds : descriptions r.arguments with
    | error e => simp [hds, Except.map] at h
    | ok ds =>
      obtain ⟨new, hlength, hopen, hnames, hadded⟩ := PlanTool.addTasksTo_names p supply n ds
      simp only [hds, Except.map, hadded, Except.ok.injEq, Prod.mk.injEq] at h
      obtain ⟨rfl, rfl⟩ := h
      simp only [PlanChange.minted, List.length_map]
      exact .added hnone hopen hnames
  | updateTask =>
    simp only [apply] at h
    cases hout : outcome r.arguments with
    | error e => simp [hout, bind, Except.bind] at h
    | ok o =>
      obtain ⟨taskId, status⟩ := o
      simp only [hout, bind, Except.bind] at h
      cases hset : p.setStatus? taskId status with
      | error e => simp [hset] at h
      | ok q' =>
        simp only [hset, pure, Except.pure, Except.ok.injEq, Prod.mk.injEq] at h
        obtain ⟨rfl, rfl⟩ := h
        exact .updated (ToolRecord.update?_eq_some.mpr ⟨htool, hout, hresult⟩) hset

namespace Run

variable {env : Env} {t : List Entry} {l : Ledger} {a : Assembly} {s s' : State} {call : Call}

/-- A call that is answered is recorded, and what its record tells is what it made of the plan. -/
theorem dispatch_recorded {k : Nat} (p : Stands env t l (.start k) s) (call : Call) :
    Ensures (dispatch env call) s
      (fun _ s' => ∃ r, s'.records = l.records ++ [r] ∧
        RecordedBy env.supply r l.plan k s'.plan s'.assembly.minted)
      (fun _ _ => True) := by
  have p₀ : Stands env (t ++ [.dispatch call]) l (.start k) (s.note (.dispatch call)) :=
    p.note rfl rfl
  -- A call that is completed without a change of the plan.
  have completes {t' : List Entry} {spending : Spending} {s' : State}
      (p' : Stands env t' { l with spending := spending } (.start k) s') (args result : Json)
      (hnone : ToolRecord.update? ⟨call.id, call.name, args, result⟩ = none) :
      Ensures (complete env call args result none) s'
        (fun _ s'' => ∃ r, s''.records = l.records ++ [r] ∧
          RecordedBy env.supply r l.plan k s''.plan s''.assembly.minted)
        (fun _ _ => True) := by
    refine (complete_stands p' call args result none).mono (fun _ s'' h => ?_)
      (fun _ _ _ => trivial)
    obtain ⟨u, p''⟩ := h
    refine ⟨_, congrArg Ledger.records p''.ledger, ?_⟩
    rw [p''.plan_eq, p''.assembly]
    exact .unchanged hnone
  refine ensures_dispatch (fun _ _ => completes p₀ _ _ (ToolRecord.update?_of_failure rfl))
    (fun raw tool _ htool => ?_) (fun raw hargs htool => ?_)
  · refine ((changePlan_spec p₀ tool _).and (changePlan_made env tool _ _)).mono
      (fun r s₁ h => ?_) (fun _ _ h => h.1.elim)
    obtain ⟨⟨plan, shown, k', -, -, p₁⟩, hmade⟩ := h
    refine (complete_stands p₁ call _ r.1 r.2).mono (fun _ s₂ h₂ => ?_) (fun _ _ _ => trivial)
    obtain ⟨u, p₂⟩ := h₂
    have hminted : s₁.assembly.minted = k' := congrArg Assembly.minted p₁.assembly
    have hbefore : s.assembly.minted = k := congrArg Assembly.minted p.assembly
    have hplan₁ : s₁.plan = plan := p₁.plan_eq
    refine ⟨_, congrArg Ledger.records p₂.ledger, ?_⟩
    rw [p₂.plan_eq, p₂.assembly, ← p.plan_eq]
    rcases hmade with ⟨change, rfl, happly, hmore⟩ | ⟨⟨message, hfailed⟩, rfl⟩
    · have hk : k' = k + change.minted := by
        rw [← hminted, hmore, ← hbefore]
        rfl
      rw [← hplan₁, hk, ← hbefore]
      exact PlanTool.apply_recorded htool happly rfl
    · have hsame : s.plan = plan := hplan₁
      have hk : k = k' := hbefore.symm.trans hminted
      rw [hsame, hk]
      exact .unchanged (ToolRecord.update?_of_failure hfailed)
  · have hnone (args result : Json) :
        ToolRecord.update? ⟨call.id, call.name, args, result⟩ = none :=
      ToolRecord.update?_of_tool (by simp [htool])
    refine (admitTool_spec p₀ (takesSlot_of_ok hargs htool)).mono (fun denied s₁ p₁ => ?_)
      (fun _ _ h => h.elim)
    cases denied with
    | some denied => exact completes p₁ _ _ (hnone _ _)
    | none =>
      cases env.tools.get? call.name with
      | none => exact completes p₁ _ _ (hnone _ _)
      | some tool =>
        refine (workOff_spec (.start p₁) tool _).mono (fun result s₂ h => ?_)
          (fun _ _ _ => trivial)
        obtain ⟨u, -, p₂⟩ := h
        exact completes p₂ _ _ (hnone _ _)

theorem dispatchAll_recorded {k : Nat} (p : Stands env t l (.start k) s) (calls : List Call) :
    Ensures (dispatchAll env calls) s
      (fun _ s' => ∃ rs, s'.records = l.records ++ rs ∧
        RecordedAll env.supply rs l.plan k s'.plan s'.assembly.minted)
      (fun _ _ => True) := by
  induction calls generalizing t l k s with
  | nil =>
    refine ⟨[], ?_, ?_⟩
    · rw [List.append_nil, ← p.ledger]
      rfl
    · rw [p.plan_eq, p.assembly]
      exact .nil _ _
  | cons call rest ih =>
    simp only [dispatchAll, ensures_bind]
    refine ((dispatch_spec p call).and (dispatch_recorded p call)).mono (fun _ s₁ h => ?_)
      (fun _ _ _ => trivial)
    obtain ⟨⟨v, l', k', -, p₁⟩, r, hrecords, hr⟩ := h
    obtain rfl := p₁.ledger
    have hminted : s₁.assembly.minted = k' := congrArg Assembly.minted p₁.assembly
    rw [hminted] at hr
    refine (ih p₁).mono (fun _ s₂ h₂ => ?_) (fun _ _ h₂ => h₂)
    obtain ⟨rs, hmore, hrs⟩ := h₂
    refine ⟨r :: rs, ?_, .cons hr hrs⟩
    rw [hmore, show s₁.ledger.records = s₁.records from rfl, hrecords, List.append_assoc]
    rfl

/-! ## What a move makes of a plan -/

/-- A run that stands between two answers, with a number of names minted at least. -/
def StandsPast (env : Env) (n : Nat) (s : State) : Prop :=
  ∃ t l k, n ≤ k ∧ Stands env t l (.start k) s

theorem answerInTime_raises {least : Nat} (h : StandsPast env least s) (request : ModelRequest)
    (scope : Scope) (n : Nat) :
    Ensures (answerInTime env request scope n) s (fun _ s' => StandsPast env least s')
      (fun _ _ => True) := by
  obtain ⟨t, l, k, hle, p⟩ := h
  have hmore (cs : List Chunk) :
      least ≤ (Assembly.pushAll env.supply cs (.start k)).2.minted :=
    Nat.le_trans hle (Assembly.pushAll_grew (a := .start k) cs).minted
  refine ensures_answerInTime ((attemptAnswer_spec p request scope.timeout?).mono
      (fun _ _ h₁ => h₁) (fun _ _ _ => trivial)) (fun s₁ h₁ => ?_) (fun _ _ => trivial)
    (fun _ s₁ h₁ => ?_) (fun _ _ _ => trivial)
  · obtain ⟨cs, p₁, -⟩ := h₁
    exact ⟨_, _, _, hmore cs, p₁.next.note rfl rfl⟩
  · obtain ⟨cs, p₁, -⟩ := h₁
    exact ⟨_, _, _, hmore cs, p₁.next⟩

/-- A call to the model takes no minted name back. -/
theorem callModel_raises {k : Nat} (p : Stands env t l (.start k) s) (ask : Ask) :
    Ensures (callModel env ask) s (fun _ s' => k ≤ s'.assembly.minted) (fun _ _ => True) := by
  have raised {s' : State} (h : StandsPast env k s') : k ≤ s'.assembly.minted := by
    obtain ⟨t', l', k', hle, p'⟩ := h
    rw [p'.assembly]
    exact hle
  refine (callModel_by_attempts (I := StandsPast env k) (R := StandsPast env k)
    ⟨t, l, k, Nat.le_refl k, p⟩ (fun spending _ => ?_) (fun _ _ n s₁ h₁ => ?_)
    (fun _ => trivial)).imp (fun _ _ h₁ => raised h₁)
  · have p₁ : Stands env t { s.ledger with spending := spending } (.start k)
        { s with spending := spending } := p.withLedger rfl rfl rfl rfl rfl
    exact ⟨_, _, k, Nat.le_refl k, p₁.note rfl rfl⟩
  · refine (answerInTime_raises h₁ _ _ n).imp (fun answer s₂ h₂ => ?_)
    rwa [ite_self]

/-- The plan that a move sets of its own accord. -/
def Move.planOf (p : Plan) : Move → Plan
  | .replan q _ => q
  | _ => p

/-- What a move makes of the plan is what it sets of its own accord and then what the records of its
calls tell. -/
def Recorded (env : Env) (m : Move) (s s' : State) : Prop :=
  ∃ rs n, s'.records = s.records ++ rs ∧ s.assembly.minted ≤ n ∧
    RecordedAll env.supply rs (m.planOf s.plan) n s'.plan s'.assembly.minted

theorem Recorded.of_stands {m : Move} {k : Nat} (p : Stands env t l (.start k) s')
    (hrecords : l.records = s.records) (hplan : l.plan = m.planOf s.plan)
    (hle : s.assembly.minted ≤ k) : Recorded env m s s' := by
  obtain rfl := p.ledger
  refine ⟨[], k, ?_, hle, ?_⟩
  · rw [List.append_nil]
    exact hrecords
  · rw [p.assembly, ← hplan]
    exact .nil _ _

theorem move_recorded (h : Resting env s) (m : Move) :
    Ensures (m.run env) s (fun _ s' => Recorded env m s s') (fun _ _ => True) := by
  obtain ⟨k, p⟩ := h
  have hminted : s.assembly.minted = k := congrArg Assembly.minted p.assembly
  cases m with
  | go next => exact .of_stands p rfl rfl (Nat.le_of_eq hminted)
  | halt halt => trivial
  | mark label next =>
    simp only [Move.run, ensures_bind, ensures_pure]
    exact (stageMarker_spec p label).mono
      (fun _ s₁ p₁ => .of_stands p₁ rfl rfl (Nat.le_of_eq hminted)) (fun _ _ _ => trivial)
  | tell text next =>
    simp only [Move.run, ensures_bind, ensures_pure]
    refine (say_spec p text).mono (fun _ s₁ p₁ => ?_) (fun _ _ _ => trivial)
    exact .of_stands (k := k + 1) p₁ rfl rfl (by omega)
  | replan plan next =>
    have p₀ : Stands env s.trail { s.ledger with plan := plan } (.start k)
        { s with plan := plan } := p.withLedger rfl rfl rfl rfl rfl
    simp only [Move.run, ensures_bind, ensures_modify, ensures_pure]
    exact (showPlan_spec p₀).mono
      (fun _ s₁ p₁ => .of_stands p₁ rfl rfl (Nat.le_of_eq hminted)) (fun _ _ _ => trivial)
  | ask wanted keep next denied =>
    simp only [Move.run, ensures_bind]
    refine ((callModel_spec p wanted).and (callModel_raises p wanted)).mono
      (fun answer s₁ h₁ => ?_) (fun _ _ _ => trivial)
    cases answer with
    | none =>
      obtain ⟨⟨-, rfl⟩, -⟩ := h₁
      exact .of_stands p rfl rfl (Nat.le_of_eq hminted)
    | some turn =>
      obtain ⟨⟨spending, u, k₁, -, -, -, p₁⟩, hle⟩ := h₁
      have hminted₁ : s₁.assembly.minted = k₁ := congrArg Assembly.minted p₁.assembly
      simp only [ensures_bind, ensures_pure]
      refine (commit_spec p₁ turn (keep turn.calls)).mono (fun _ s₂ p₂ => ?_)
        (fun _ _ h => h.elim)
      refine (dispatchAll_recorded p₂ (keep turn.calls)).mono (fun _ s₃ h₃ => ?_)
        (fun _ _ _ => trivial)
      obtain ⟨rs, hrecords, hrs⟩ := h₃
      exact ⟨rs, k₁, hrecords, by omega, hrs⟩

end Run

end AgentRun
