import AgentRun.Proofs.Moves
import AgentRun.Proofs.Results

/-!
# The order of the stages

A run in the planExecute mode marks the beginning of three stages, and a run in another mode marks
none. What a run does between two markers depends on the stage it is in: while it plans it calls the
model at most once, and behind the last marker it gives no more results and changes no plan,
whatever the model asks for in its final answer.

The trail of such a run is described part by part: `Staged` says that a trail ends with a stage, by
what is known of the trail before its marker and of the entries since. A station of the stages fixes
the stage that the run is in (`OnCourse`), and a move either begins the next stage or adds entries
to the one it is in (`Adds`).
-/

namespace AgentRun

/-- The stage that an event begins. -/
def Event.stage? : Event → Option String
  | .stage label => some label
  | _ => none

namespace Run

/-- The stages that began, by their labels. -/
def stagesShown (j : List Entry) : List String := (eventsOf j).filterMap Event.stage?

/-- The stages of a planExecute run. -/
def stageOrder : List String := ["plan", "execute", "summary"]

section Labels

variable {i j u v : List Entry} {request : ModelRequest} {label : String}

@[simp] theorem stagesShown_append : stagesShown (i ++ j) = stagesShown i ++ stagesShown j := by
  simp [stagesShown]

@[simp] theorem stagesShown_marker :
    stagesShown (.event (.stage label) :: j) = label :: stagesShown j := rfl

theorem stagesShown_eq_nil (h : ∀ label, .event (.stage label) ∉ u) : stagesShown u = [] := by
  refine List.filterMap_eq_nil_iff.mpr fun e he => ?_
  cases e with
  | stage label => exact absurd (mem_eventsOf.mp he) (h label)
  | _ => rfl

theorem mem_stagesShown (h : .event (.stage label) ∈ u) : label ∈ stagesShown u :=
  List.mem_filterMap.mpr ⟨.stage label, mem_eventsOf.mpr h, rfl⟩

theorem stagesShown_ofCall (h : ∀ e ∈ v, e.isOfCall = true) : stagesShown v = [] :=
  stagesShown_eq_nil fun _ he => by cases h _ he

theorem BrokenTrail.stages_nil (h : BrokenTrail request u) : stagesShown u = [] := by
  cases h with
  | broken htries hes =>
    refine stagesShown_eq_nil fun label he => ?_
    rcases List.mem_append.mp he with he | he
    · rcases List.mem_cons.mp he with he | he
      · cases he
      · obtain ⟨_, heq⟩ := htries _ he
        cases heq
    · obtain ⟨e, he, heq⟩ := List.mem_map.mp he
      obtain rfl : e = .stage label := Entry.event.inj heq
      cases hes _ he

theorem AnswerTrail.shown_nil {supply : Supply} {turn : Turn}
    (h : AnswerTrail supply request u turn) :
    stagesShown u = [] ∧ resultIds u = [] ∧ plansShown u = [] := by
  obtain ⟨v, rfl, hbroken, -⟩ := h.eq_append
  refine ⟨?_, ?_, ?_⟩
  · rw [stagesShown_append, hbroken.stages_nil]
    rfl
  · rw [resultIds_append, resultIds_quiet hbroken.quiet]
    rfl
  · rw [plansShown_append, plansShown_quiet hbroken.quiet]
    rfl

/-- A stage that begins only once begins in one place. -/
theorem split_unique {before before' after after' : List Entry}
    (honce : (stagesShown (before ++ .event (.stage label) :: after)).Nodup)
    (h : before ++ .event (.stage label) :: after = before' ++ .event (.stage label) :: after') :
    before = before' ∧ after = after' := by
  rw [stagesShown_append, stagesShown_marker] at honce
  have hother := List.nodup_append.mp honce
  have hbefore : Entry.event (.stage label) ∉ before := fun hmem =>
    hother.2.2 label (mem_stagesShown hmem) label List.mem_cons_self rfl
  have hafter : Entry.event (.stage label) ∉ after := fun hmem =>
    (List.nodup_cons.mp hother.2.1).1 (mem_stagesShown hmem)
  obtain ⟨hb, -, ha⟩ := (List.append_cons_inj_of_notMem hbefore hafter).mp h
  exact ⟨hb, ha⟩

end Labels

/-! ## What a move adds -/

/-- Entries that a move adds to the stage it is made in. -/
structure Adds (m : Move) (v : List Entry) : Prop where
  stages : stagesShown v = []
  calls : (callsOf v).length ≤ 1
  /-- Where no call of the answer is kept there is no result and no plan. -/
  silent : ∀ wanted next denied, m = .ask wanted (List.take 0) next denied →
    resultIds v = [] ∧ plansShown v = []

section Moves

variable {env : Env} {s s' : State} {m : Move} {c : Station} {halt : Halt} {v : List Entry}
  {label : String} {dest : Station}

theorem Adds.nil (m : Move) : Adds m [] := ⟨rfl, Nat.zero_le 1, fun _ _ _ _ => ⟨rfl, rfl⟩⟩

theorem Adds.of_event {e : Event} (hstage : e.stage? = none)
    (hm : ∀ wanted keep next denied, m ≠ .ask wanted keep next denied) : Adds m [.event e] := by
  refine ⟨?_, Nat.zero_le 1, fun wanted next denied h => absurd h (hm _ _ _ _)⟩
  simp [stagesShown, eventsOf, Entry.event?, hstage]

theorem Served.calls_le {calls : List Call} {l l' : Ledger} {u : List Entry} {time : Nat}
    {request : ModelRequest} {most : Nat} (hbegun : Begun time most request u)
    (hv : Served calls l v l') : (callsOf (u ++ v)).length ≤ 1 := by
  rw [callsOf_append, hbegun.calls, callsOf_ofCall hv.ofCall]
  exact Nat.le_refl 1

theorem Moved.adds (h : Moved env s s' m c) (hm : ∀ label dest, m ≠ .mark label dest) :
    ∃ v, s'.trail = s.trail ++ v ∧ Adds m v := by
  cases h with
  | go h => exact ⟨[], by simp [h], .nil _⟩
  | denied hspent h => exact ⟨[], by simp [h], .nil _⟩
  | @answered wanted keep _ _ spending u v turn hadmitted hbegun hu hv htrail =>
    have hserved := hv.served.1
    refine ⟨u ++ v, by rw [htrail, List.append_assoc], ?_, hserved.calls_le hbegun, ?_⟩
    · rw [stagesShown_append, hu.shown_nil.1, stagesShown_ofCall hserved.ofCall]
      rfl
    · intro wanted' next' denied' heq
      obtain ⟨-, rfl, -, -⟩ := Move.ask.inj heq
      rw [List.take_zero] at hv
      generalize s'.ledger = l at hv
      cases hv with
      | nil => simpa using hu.shown_nil.2
  | marked htrail hledger => exact absurd rfl (hm _ _)
  | replanned htrail hledger => exact ⟨_, htrail, .of_event rfl (by simp)⟩
  | told htrail hledger => exact ⟨_, htrail, .of_event rfl (by simp)⟩

theorem Stopped.adds (h : Stopped env s s' m halt) : ∃ v, s'.trail = s.trail ++ v ∧ Adds m v := by
  cases h with
  | halted h => exact ⟨[], by simp [h], .nil _⟩
  | @broke _ _ _ _ spending u _ hadmitted hbegun hu htrail hledger hhalt =>
    refine ⟨u, htrail, hu.stages_nil, ?_, ?_⟩
    · rw [hbegun.calls]
      exact Nat.le_refl 1
    · intro _ _ _ _
      exact ⟨resultIds_quiet hu.quiet, plansShown_quiet hu.quiet⟩
  | @unanswered _ _ _ _ spending u v turn _ hadmitted hbegun hu hv htrail hhalt =>
    have hserved := hv.served
    refine ⟨u ++ v, by rw [htrail, List.append_assoc], ?_, hserved.calls_le hbegun, ?_⟩
    · rw [stagesShown_append, hu.shown_nil.1, stagesShown_ofCall hserved.ofCall]
      rfl
    · intro wanted' next' denied' heq
      obtain ⟨-, rfl, -, -⟩ := Move.ask.inj heq
      rw [List.take_zero] at hv
      cases hv
  | unmarked htrail hledger hgone => exact ⟨[], by simp [htrail], .nil _⟩
  | unshown htrail hledger hgone => exact ⟨[], by simp [htrail], .nil _⟩
  | untold htrail hledger hgone => exact ⟨[], by simp [htrail], .nil _⟩

theorem Moved.marker (h : Moved env s s' (.mark label dest) c) :
    c = dest ∧ s'.trail = s.trail ++ [.event (.stage label)] ∧ s'.plan = s.plan := by
  cases h with
  | marked htrail hledger => exact ⟨rfl, htrail, congrArg Ledger.plan hledger⟩

end Moves

/-! ## Trails by their stages -/

/-- A trail that ends with a stage: of what came before its marker `before` is known, and of the
entries since `since`. -/
def Staged (label : String) (before since : List Entry → Prop) (t : List Entry) : Prop :=
  ∃ p u, before p ∧ stagesShown u = [] ∧ since u ∧ t = p ++ .event (.stage label) :: u

/-- No stage has begun. -/
def Unstarted (t : List Entry) : Prop := stagesShown t = []

/-- The run plans, and has called the model no more than `most` times for it. -/
def Planned (most : Nat) : List Entry → Prop :=
  Staged "plan" Unstarted fun u => (callsOf u).length ≤ most

/-- The run works off its tasks. -/
def Executed (most : Nat) : List Entry → Prop := Staged "execute" (Planned most) fun _ => True

/-- The run gives its final answer, and has shown neither a result nor a plan since. -/
def Summarized (most : Nat) : List Entry → Prop :=
  Staged "summary" (Executed most) fun u => resultIds u = [] ∧ plansShown u = []

/-- The stages began in their order, as far as the run came. -/
inductive Ordered (most : Nat) (t : List Entry) : Prop
  | unstarted (h : Unstarted t)
  | planned (h : Planned most t)
  | executed (h : Executed most t)
  | summarized (h : Summarized most t)

section Stages

variable {label : String} {before since : List Entry → Prop} {t v : List Entry} {most : Nat}

theorem Staged.begun (h : before t) (hsince : since []) :
    Staged label before since (t ++ [.event (.stage label)]) :=
  ⟨t, [], h, rfl, hsince, rfl⟩

theorem Staged.extend (h : Staged label before since t) (hv : stagesShown v = [])
    (hsince : ∀ u, since u → since (u ++ v)) : Staged label before since (t ++ v) := by
  obtain ⟨p, u, hp, hu, hs, rfl⟩ := h
  refine ⟨p, u ++ v, hp, ?_, hsince u hs, by simp⟩
  rw [stagesShown_append, hu, hv]
  rfl

theorem Staged.stages_eq {labels : List String} (h : Staged label before since t)
    (hbefore : ∀ p, before p → stagesShown p = labels) : stagesShown t = labels ++ [label] := by
  obtain ⟨p, u, hp, hu, -, rfl⟩ := h
  rw [stagesShown_append, stagesShown_marker, hbefore p hp, hu]

theorem Planned.stages_eq (h : Planned most t) : stagesShown t = ["plan"] :=
  Staged.stages_eq h fun _ hp => hp

theorem Executed.stages_eq (h : Executed most t) : stagesShown t = ["plan", "execute"] :=
  Staged.stages_eq h fun _ hp => hp.stages_eq

theorem Summarized.stages_eq (h : Summarized most t) : stagesShown t = stageOrder :=
  Staged.stages_eq h fun _ hp => hp.stages_eq

theorem Executed.extend (h : Executed most t) (hv : stagesShown v = []) : Executed most (t ++ v) :=
  Staged.extend h hv fun _ _ => trivial

theorem Summarized.extend (h : Summarized most t) (hv : stagesShown v = [])
    (hresults : resultIds v = []) (hplans : plansShown v = []) : Summarized most (t ++ v) := by
  refine Staged.extend h hv fun u hu => ?_
  rw [resultIds_append, plansShown_append, hresults, hplans, hu.1, hu.2]
  exact ⟨rfl, rfl⟩

namespace Ordered

theorem stages_prefix (h : Ordered most t) : stagesShown t <+: stageOrder := by
  cases h with
  | unstarted h => exact h ▸ List.nil_prefix
  | planned h => exact h.stages_eq ▸ ⟨["execute", "summary"], rfl⟩
  | executed h => exact h.stages_eq ▸ ⟨["summary"], rfl⟩
  | summarized h => exact h.stages_eq ▸ List.prefix_rfl

theorem stages_nodup (h : Ordered most t) : (stagesShown t).Nodup :=
  h.stages_prefix.sublist.nodup (by decide)

/-- Nothing that a run says at its end belongs to a stage. -/
theorem extend (h : Ordered most t) (hstages : stagesShown v = []) (hcalls : callsOf v = [])
    (hresults : resultIds v = []) (hplans : plansShown v = []) : Ordered most (t ++ v) := by
  cases h with
  | unstarted h =>
    have h' : stagesShown t = [] := h
    exact .unstarted (by rw [Unstarted, stagesShown_append, h', hstages]; rfl)
  | planned h =>
    refine .planned (Staged.extend h hstages fun u hu => ?_)
    rw [callsOf_append, hcalls, List.append_nil]
    exact hu
  | executed h => exact .executed (h.extend hstages)
  | summarized h => exact .summarized (h.extend hstages hresults hplans)

/-- Behind the marker of the summary there is neither a result nor a plan. -/
theorem silent_end {before after : List Entry} (h : Ordered most t)
    (ht : t = before ++ .event (.stage "summary") :: after) :
    resultIds after = [] ∧ plansShown after = [] := by
  have hmem : "summary" ∈ stagesShown t := by
    rw [ht, stagesShown_append, stagesShown_marker]
    exact List.mem_append_right _ List.mem_cons_self
  have honce : (stagesShown t).Nodup := h.stages_nodup
  cases h with
  | unstarted h => exact absurd (h ▸ hmem) List.not_mem_nil
  | planned h => exact absurd (h.stages_eq ▸ hmem) (by decide)
  | executed h => exact absurd (h.stages_eq ▸ hmem) (by decide)
  | summarized h =>
    obtain ⟨p, u, -, -, hu, rfl⟩ := h
    obtain ⟨-, rfl⟩ := split_unique honce ht
    exact hu

/-- What stands before the marker of the execution is the planning. -/
theorem planned_before {before after : List Entry} (h : Ordered most t)
    (ht : t = before ++ .event (.stage "execute") :: after) : Planned most before := by
  have hmem : "execute" ∈ stagesShown t := by
    rw [ht, stagesShown_append, stagesShown_marker]
    exact List.mem_append_right _ List.mem_cons_self
  have honce : (stagesShown t).Nodup := h.stages_nodup
  cases h with
  | unstarted h => exact absurd (h ▸ hmem) List.not_mem_nil
  | planned h => exact absurd (h.stages_eq ▸ hmem) (by decide)
  | executed h =>
    obtain ⟨p, u, hp, -, -, rfl⟩ := h
    obtain ⟨rfl, -⟩ := split_unique honce ht
    exact hp
  | summarized h =>
    obtain ⟨q, w, ⟨p, u, hp, -, -, rfl⟩, -, -, rfl⟩ := h
    have ht' : p ++ .event (.stage "execute") :: (u ++ .event (.stage "summary") :: w)
        = before ++ .event (.stage "execute") :: after := by simpa using ht
    obtain ⟨rfl, -⟩ := split_unique (by simpa using honce) ht'
    exact hp

/-- The model calls between the markers of the planning and of the execution. -/
theorem planning_calls {before between after : List Entry} (h : Ordered most t)
    (ht : t = before ++ .event (.stage "plan") :: between ++ .event (.stage "execute") :: after) :
    (callsOf between).length ≤ most := by
  have hplanned : Planned most (before ++ .event (.stage "plan") :: between) := h.planned_before ht
  have honce : (stagesShown (before ++ .event (.stage "plan") :: between)).Nodup := by
    rw [hplanned.stages_eq]
    decide
  obtain ⟨p, u, -, -, hcalls, heq⟩ := hplanned
  obtain ⟨-, rfl⟩ := split_unique honce heq
  exact hcalls

end Ordered

end Stages

/-! ## Where a run is in its stages -/

/-- What the station that a run comes to says of its trail. A run that may not call the model for a
plan has no reason to. -/
def OnCourse (most : Nat) : Station → State → Prop
  | .opening _, s => Unstarted s.trail ∧ (most = 0 → s.plan.hasOpen = true)
  | .planning _, s => Staged "plan" Unstarted (fun u => u = []) s.trail ∧
      (most = 0 → s.plan.hasOpen = true ∨ s.spending.isTimedOut s.now = true)
  | .executing _, s => Planned most s.trail
  | .looking _, s => Executed most s.trail
  | .working _ _ _, s => Executed most s.trail
  | .dropping, s => Executed most s.trail
  | .closing, s => Executed most s.trail
  | .summarizing, s => Summarized most s.trail
  | .exhausted, s => Summarized most s.trail
  | .done, s => Summarized most s.trail
  | _, _ => False

section Course

variable {env : Env} {rounds most : Nat} {s s' : State} {m : Move} {c c' : Station} {halt : Halt}

theorem Staged.planned {t : List Entry} (h : Staged "plan" Unstarted (fun u => u = []) t) :
    Planned most t := by
  obtain ⟨p, u, hp, hu, rfl, rfl⟩ := h
  exact ⟨p, [], hp, rfl, Nat.zero_le _, rfl⟩

theorem Staged.planned_adds {t v : List Entry} (h : Staged "plan" Unstarted (fun u => u = []) t)
    (hmost : most ≠ 0) (hv : Adds m v) : Planned most (t ++ v) := by
  obtain ⟨p, u, hp, hu, rfl, rfl⟩ := h
  have hcalls : (callsOf v).length ≤ most := by
    have hone := hv.calls
    omega
  exact ⟨p, v, hp, hv.stages, hcalls, by simp⟩

theorem OnCourse.may_plan {fuel : Nat} (h : OnCourse most (.planning fuel) s)
    (hclosed : s.plan.hasOpen = false) (hearly : s.spending.isTimedOut s.now = false) :
    most ≠ 0 := by
  intro hzero
  rcases h.2 hzero with hopen | hlate
  · exact absurd hopen (by simp [hclosed])
  · exact absurd hlate (by simp [hearly])

theorem onCourse_step (hd : Decides env rounds s c m) (h : OnCourse most c s)
    (hm : Moved env s s' m c') : OnCourse most c' s' := by
  cases hd with
  | begin =>
    obtain ⟨rfl, htrail, hplan⟩ := hm.marker
    refine ⟨htrail ▸ .begun h.1 rfl, fun hmost => Or.inl ?_⟩
    rw [hplan]
    exact h.2 hmost
  | seeded hopen =>
    obtain ⟨rfl, rfl⟩ := hm.go_eq
    exact h.1.planned
  | latePlan hclosed hlate =>
    obtain ⟨rfl, rfl⟩ := hm.go_eq
    exact h.1.planned
  | @plan fuel hclosed hearly =>
    have hmost : most ≠ 0 := OnCourse.may_plan h hclosed hearly
    obtain ⟨v, htrail, hv⟩ := hm.adds nofun
    obtain rfl : c' = .executing fuel := hm.leads (P := (· = .executing fuel)) ⟨fun _ => rfl, rfl⟩
    show Planned most s'.trail
    rw [htrail]
    exact h.1.planned_adds hmost hv
  | execute =>
    obtain ⟨rfl, htrail, -⟩ := hm.marker
    show Executed most s'.trail
    rw [htrail]
    exact .begun h trivial
  | noFuel => cases hm
  | noTask hnone =>
    obtain ⟨rfl, rfl⟩ := hm.go_eq
    exact h
  | lateTask htask hlate =>
    obtain ⟨rfl, rfl⟩ := hm.go_eq
    exact h
  | task htask hearly =>
    obtain ⟨rfl, rfl⟩ := hm.go_eq
    exact h
  | settled hsettled =>
    obtain ⟨rfl, rfl⟩ := hm.go_eq
    exact h
  | giveUp hopen hplan =>
    obtain ⟨v, htrail, hv⟩ := hm.adds nofun
    obtain ⟨rfl, -, -⟩ := hm.replan_eq
    show Executed most s'.trail
    rw [htrail]
    exact Executed.extend h hv.stages
  | lateRound hopen hlate =>
    obtain ⟨rfl, rfl⟩ := hm.go_eq
    exact h
  | round hopen hearly =>
    obtain ⟨v, htrail, hv⟩ := hm.adds nofun
    have hexecuted : Executed most s'.trail := htrail ▸ Executed.extend h hv.stages
    exact hm.leads (P := fun c => OnCourse most c s') ⟨fun _ => hexecuted, hexecuted⟩
  | drop hopen =>
    obtain ⟨v, htrail, hv⟩ := hm.adds nofun
    obtain ⟨rfl, -, -⟩ := hm.replan_eq
    show Executed most s'.trail
    rw [htrail]
    exact Executed.extend h hv.stages
  | noOpen hclosed =>
    obtain ⟨rfl, rfl⟩ := hm.go_eq
    exact h
  | close =>
    obtain ⟨rfl, htrail, -⟩ := hm.marker
    show Summarized most s'.trail
    rw [htrail]
    exact .begun h ⟨rfl, rfl⟩
  | spent hspent =>
    obtain ⟨rfl, rfl⟩ := hm.go_eq
    exact h
  | summary hunspent =>
    obtain ⟨v, htrail, hv⟩ := hm.adds nofun
    obtain ⟨hresults, hplans⟩ := hv.silent _ _ _ rfl
    have hsummarized : Summarized most s'.trail :=
      htrail ▸ Summarized.extend h hv.stages hresults hplans
    exact hm.leads (P := fun c => OnCourse most c s') ⟨fun _ => hsummarized, hsummarized⟩
  | apology =>
    cases hm with
    | told htrail hledger =>
      show Summarized most s'.trail
      rw [htrail]
      exact Summarized.extend h rfl rfl rfl
  | done =>
    obtain ⟨rfl, rfl⟩ := hm.go_eq
    exact h
  | _ => exact h.elim

theorem onCourse_stopped (hd : Decides env rounds s c m) (h : OnCourse most c s)
    (hs : Stopped env s s' m halt) : Ordered most s'.trail := by
  obtain ⟨v, htrail, hv⟩ := hs.adds
  have hexecuted (h : Executed most s.trail) : Ordered most s'.trail :=
    .executed (htrail ▸ h.extend hv.stages)
  cases hd with
  | begin =>
    cases hs with
    | unmarked htrail _ _ => exact .unstarted (htrail ▸ h.1)
  | plan hclosed hearly =>
    have hmost : most ≠ 0 := OnCourse.may_plan h hclosed hearly
    exact .planned (htrail ▸ h.1.planned_adds hmost hv)
  | execute =>
    cases hs with
    | unmarked htrail _ _ => exact .planned (htrail ▸ h)
  | noFuel => exact hexecuted h
  | giveUp hopen hplan => exact hexecuted h
  | round hopen hearly => exact hexecuted h
  | drop hopen => exact hexecuted h
  | close => exact hexecuted h
  | summary hunspent =>
    obtain ⟨hresults, hplans⟩ := hv.silent _ _ _ rfl
    exact .summarized (htrail ▸ Summarized.extend h hv.stages hresults hplans)
  | apology =>
    cases hs with
    | untold htrail _ _ => exact .summarized (htrail ▸ h)
  | decide | step => exact h.elim
  | _ => cases hs

end Course

/-- Whether a station is one of a planExecute run before its summary. -/
def Station.isStaged : Station → Bool
  | .opening _ => true
  | .planning _ => true
  | .executing _ => true
  | .looking _ => true
  | .working _ _ _ => true
  | .dropping => true
  | .closing => true
  | _ => false

section Unstaged

variable {env : Env} {rounds : Nat} {s s' : State} {m : Move} {c c' : Station} {halt : Halt}

/-- The moves of the other modes mark nothing. -/
theorem unstaged_adds (hd : Decides env rounds s c m) (hc : c.isStaged = false) :
    (∀ label dest, m ≠ .mark label dest) ∧ m.LeadsTo fun c => c.isStaged = false := by
  cases hd with
  | decide =>
    exact ⟨nofun, fun _ => Station.decided (P := (·.isStaged = false)) (fun _ => rfl) rfl, rfl⟩
  | step =>
    exact ⟨nofun, fun _ => Station.decided (P := (·.isStaged = false)) (fun _ => rfl) rfl, rfl⟩
  | noStep => exact ⟨nofun, rfl⟩
  | lateStep => exact ⟨nofun, rfl⟩
  | spent => exact ⟨nofun, rfl⟩
  | summary => exact ⟨nofun, fun _ => rfl, rfl⟩
  | apology => exact ⟨nofun, rfl⟩
  | done => exact ⟨nofun, rfl⟩
  | _ => cases hc

end Unstaged

/-! ## The stages of a whole run -/

section Whole

variable {engine : Engine} {turn : UserTurn} {world : World} {fuel most : Nat} {c : Station}
  {s : State}

/-- A run in another mode begins no stage. -/
theorem unstaged_run (engine : Engine) (turn : UserTurn) (world : World) (fuel : Nat)
    (hmode : turn.agent.mode ≠ .planExecute) :
    stagesShown (afterStages engine turn world fuel).trail = [] := by
  have hstation : ((runnerOf engine turn).station fuel).isStaged = false := by
    have hrunner : (runnerOf engine turn).mode ≠ .planExecute := by
      rw [mode_ofAgent]
      exact hmode
    cases hr : runnerOf engine turn with
    | planExecute rounds => exact absurd (congrArg Runner.mode hr) hrunner
    | _ => rfl
  refine (visits_start engine turn world fuel).comesOut
    (I := fun c s => c.isStaged = false ∧ stagesShown s.trail = [])
    (J := fun s => stagesShown s.trail = []) ⟨hstation, ?_⟩ ?step (fun s h => h.2) ?stop
  · rw [start_stands.trail]
    rfl
  case step =>
    intro c s c' s' _ h hm
    obtain ⟨hmark, hleads⟩ := unstaged_adds (decides ..) h.1
    obtain ⟨v, htrail, hv⟩ := hm.adds hmark
    refine ⟨hm.leads hleads, ?_⟩
    rw [htrail, stagesShown_append, h.2, hv.stages]
    rfl
  case stop =>
    intro c s s' halt _ h _ hs
    obtain ⟨v, htrail, hv⟩ := hs.adds
    rw [htrail, stagesShown_append, h.2, hv.stages]
    rfl

/-- From wherever a planExecute run comes, its stages stay in order, and all of them began when they
come out well. -/
theorem Visits.ordered (h : Visits engine turn world fuel c s) (hc : OnCourse most c s) :
    Ordered most (afterStages engine turn world fuel).trail ∧
      ((engine.run turn world fuel).stages = .ok () →
        stagesShown (afterStages engine turn world fuel).trail = stageOrder) := by
  refine h.comesOut (J := fun s => Ordered most s.trail ∧
    ((engine.run turn world fuel).stages = .ok () → stagesShown s.trail = stageOrder)) hc
    (fun c s c' s' _ h hm => onCourse_step (decides ..) h hm) ?done ?stop
  case done =>
    intro s hs
    exact ⟨.summarized hs, fun _ => Summarized.stages_eq hs⟩
  case stop =>
    intro c s s' halt _ hc hhalt hs
    refine ⟨onCourse_stopped (decides ..) hc hs, fun hok => ?_⟩
    rw [hhalt] at hok
    cases hok

/-- What a run says at its end begins no stage and belongs to none. -/
theorem final_added (engine : Engine) (turn : UserTurn) (world : World) (fuel : Nat) :
    ∃ v, (engine.run turn world fuel).final.trail =
        (afterStages engine turn world fuel).trail ++ v ∧
      stagesShown v = [] ∧ callsOf v = [] ∧ resultIds v = [] ∧ plansShown v = [] := by
  obtain ⟨es, texts, htrail, -, hes⟩ := final_eq engine turn world fuel
  have hquiet : ∀ f ∈ es.map Entry.event, f.isQuiet = true := by
    intro f hf
    obtain ⟨e, he, rfl⟩ := List.mem_map.mp hf
    rcases hes e he with ⟨block, message, rfl⟩ | ⟨reason, rfl⟩ <;> rfl
  refine ⟨es.map .event, htrail, stagesShown_eq_nil fun label hmem => ?_, callsOf_map_event,
    resultIds_quiet hquiet, plansShown_quiet hquiet⟩
  obtain ⟨e, he, heq⟩ := List.mem_map.mp hmem
  obtain rfl : e = .stage label := Entry.event.inj heq
  rcases hes _ he with ⟨block, message, h⟩ | ⟨reason, h⟩ <;> cases h

theorem Visits.final_ordered (h : Visits engine turn world fuel c s) (hc : OnCourse most c s) :
    Ordered most (engine.run turn world fuel).final.trail ∧
      ((engine.run turn world fuel).stages = .ok () →
        stagesShown (engine.run turn world fuel).final.trail = stageOrder) := by
  obtain ⟨v, htrail, hstages, hcalls, hresults, hplans⟩ := final_added engine turn world fuel
  obtain ⟨hordered, hall⟩ := h.ordered hc
  rw [htrail]
  refine ⟨hordered.extend hstages hcalls hresults hplans, fun hok => ?_⟩
  rw [stagesShown_append, hall hok, hstages]
  rfl

/-- A planExecute run starts on course, and with a plan that has an open task it has no reason to
plan. -/
theorem start_onCourse (engine : Engine) (turn : UserTurn) (world : World) (fuel : Nat)
    (hmode : turn.agent.mode = .planExecute)
    (hmost : most = 0 → ∃ p, turn.plan = some p ∧ p.hasOpen = true) :
    OnCourse most ((runnerOf engine turn).station fuel) (engine.start turn world).2 := by
  have hrunner : (runnerOf engine turn).mode = .planExecute := by
    rw [mode_ofAgent]
    exact hmode
  have hstart : (engine.start turn world).2.trail = [] := start_stands.trail
  have hplan : (engine.start turn world).2.plan = (startLedger engine turn world).plan :=
    congrArg Ledger.plan start_stands.ledger
  cases hr : runnerOf engine turn with
  | planExecute rounds =>
    refine ⟨?_, fun hzero => ?_⟩
    · rw [hstart]
      rfl
    · obtain ⟨p, hp, hopen⟩ := hmost hzero
      rw [hplan, startLedger, hp]
      exact hopen
  | _ => rw [hr] at hrunner; cases hrunner

/-- A visited moment of planning at which the run finds no reason to plan. -/
theorem planning_onCourse (h : Visits engine turn world fuel (.planning fuel) s)
    (hmode : turn.agent.mode = .planExecute)
    (hskip : s.plan.hasOpen = true ∨ s.spending.isTimedOut s.now = true) :
    OnCourse 0 (.planning fuel) s := by
  have hthere : OnCourse 1 (.planning fuel) s :=
    (visits_start engine turn world fuel).onwards (I := OnCourse 1)
      (start_onCourse engine turn world fuel hmode fun hzero => by cases hzero)
      (fun c s c' s' _ h hm => onCourse_step (decides ..) h hm) h
  exact ⟨hthere.1, fun _ => hskip⟩

/-- The same of the events alone, as a client sees them. -/
theorem Ordered.silent_events {t : List Entry} {before after : List Event} (h : Ordered most t)
    (ht : eventsOf t = before ++ .stage "summary" :: after) :
    ∀ e ∈ after, e.resultId? = none ∧ e.plan? = none := by
  obtain ⟨i, k, rfl, rfl⟩ := eventsOf_split ht
  have hk : eventsOf k = after := by simpa [eventsOf, Entry.event?] using ht
  obtain ⟨hresults, hplans⟩ := h.silent_end rfl
  intro e he
  rw [← hk] at he
  exact ⟨List.filterMap_eq_nil_iff.mp hresults e he, List.filterMap_eq_nil_iff.mp hplans e he⟩

/-- The stages that a planExecute run shows are the first of plan, execute and summary, and all of
them if its stages come out well; a run in another mode shows none. Behind the marker of the summary
there is neither a result nor a plan. Between the markers of the planning and of the execution there
is at most one call to the model, and none if the plan that the run was given has an open task, or
if there is one or the time of the run is up when it comes to plan. A client that keeps reading gets
all these events. -/
theorem stages_begin_in_order (engine : Engine) (turn : UserTurn) (world : World) (fuel : Nat) :
    let o := engine.run turn world fuel
    let shown := o.final.events.filterMap Event.stage?
    (turn.client.KeepsReading → o.delivered = o.final.events) ∧
    (turn.agent.mode ≠ .planExecute → shown = []) ∧
    (turn.agent.mode = .planExecute →
      shown <+: ["plan", "execute", "summary"] ∧
      (o.stages = .ok () → shown = ["plan", "execute", "summary"]) ∧
      (∀ before after, o.final.events = before ++ .stage "summary" :: after →
        ∀ e ∈ after, e.resultId? = none ∧ e.plan? = none) ∧
      ∀ before between after, o.final.trail =
          before ++ .event (.stage "plan") :: between ++ .event (.stage "execute") :: after →
        (callsOf between).length ≤ 1 ∧
        (∀ p, turn.plan = some p → p.hasOpen = true → callsOf between = []) ∧
        ∀ s, Visits engine turn world fuel (.planning fuel) s →
          s.plan.hasOpen = true ∨ s.spending.isTimedOut s.now = true → callsOf between = []) := by
  intro o shown
  have hshown : shown = stagesShown o.final.trail := by
    show o.final.events.filterMap Event.stage? = (eventsOf o.final.trail).filterMap Event.stage?
    rw [State.eventsOf_trail]
  refine ⟨delivered_eq_events, fun hmode => ?_, fun hmode => ?_⟩
  · obtain ⟨v, htrail, hv, -⟩ := final_added engine turn world fuel
    rw [hshown, htrail, stagesShown_append, hv, unstaged_run engine turn world fuel hmode]
    rfl
  · have hstart := visits_start engine turn world fuel
    obtain ⟨hordered, hall⟩ := hstart.final_ordered
      (start_onCourse engine turn world fuel hmode fun hzero => absurd hzero Nat.one_ne_zero)
    rw [hshown]
    refine ⟨hordered.stages_prefix, hall, fun before after hsplit => ?_,
      fun before between after hsplit => ⟨hordered.planning_calls hsplit, ?_, ?_⟩⟩
    · rw [← State.eventsOf_trail] at hsplit
      exact hordered.silent_events hsplit
    · intro p hp hopen
      obtain ⟨hseeded, -⟩ := hstart.final_ordered
        (start_onCourse engine turn world fuel hmode fun _ => ⟨p, hp, hopen⟩)
      exact List.length_eq_zero_iff.mp (Nat.le_zero.mp (hseeded.planning_calls hsplit))
    · intro s hvisits hskip
      obtain ⟨hskipped, -⟩ := hvisits.final_ordered (planning_onCourse hvisits hmode hskip)
      exact List.length_eq_zero_iff.mp (Nat.le_zero.mp (hskipped.planning_calls hsplit))

end Whole

/-- The name of the first task that a run adds. -/
def addedTask : String := IdKind.task.mint (Uuid.timed 0) 2

/-- A plan of one task, its outcome, and a final answer that asks for a tool. -/
def busySummary : List Reply :=
  [Script.ofChunks (Script.calls [("c1", PlanTool.addTasks.name,
      .obj [("tasks", .arr [.str "Look it up"])])]) .done,
    Script.ofChunks (Script.calls [("c2", PlanTool.updateTask.name,
      .obj [("status", .str "completed"), ("task_id", .str addedTask)])]) .done,
    Script.ofChunks (.ofContent "Done." :: Script.calls [("c3", "echo", .empty)]) .done]

/-- The call that a final answer asks for is shown, but it gets no result. -/
theorem summary_call_gets_no_result :
    let o := (rehearsal busySummary).run (firstTurn .planExecute) (.new 1) 2
    o.delivered.filterMap Event.pieceId? = ["c1", "c2", "c3"] ∧
      o.delivered.filterMap Event.resultId? = ["c1", "c2"] ∧
      o.delivered.filterMap Event.stage? = ["plan", "execute", "summary"] ∧
      ∀ before after, o.delivered = before ++ .stage "summary" :: after →
        ∀ e ∈ after, e.resultId? = none ∧ e.plan? = none := by
  intro o
  obtain ⟨hreads, -, hplanned⟩ :=
    stages_begin_in_order (rehearsal busySummary) (firstTurn .planExecute) (.new 1) 2
  obtain ⟨-, hall, hsilent, -⟩ := hplanned rfl
  have hrun : o.stages = .ok () ∧ o.final.events.filterMap Event.pieceId? = ["c1", "c2", "c3"] ∧
      o.final.events.filterMap Event.resultId? = ["c1", "c2"] := by decide +kernel
  obtain ⟨hok, hpieces, hresults⟩ := hrun
  rw [hreads Client.reader_keepsReading]
  exact ⟨hpieces, hresults, hall hok, hsilent⟩

end Run

end AgentRun
