import AgentRun.Proofs.Emission
import AgentRun.Proofs.Moves

/-!
# Runs that hang

A run that is stuck waits for ever for the model or for a backend tool, and nothing limits the wait
(`WaitsForEver`). Everything else that a run does comes back: whatever it emits goes out or finds
the client gone, and the client is only waited for up to a time. So each part of a run keeps the way
to the consumer open and the budget as it is (`Going`), or it halts with a cause (`Founded`).
-/

namespace AgentRun.Run

variable {env : Env} {budget : Budget} {past : List ModelRequest} {request : ModelRequest}
  {s s' : State} {es : List Event} {l : Ledger} {halt : Halt}

/-- If a run is stuck, it waits for ever. -/
def Founded (env : Env) (halt : Halt) (s : State) : Prop := halt = .stuck → WaitsForEver env s

theorem Founded.of_ne (h : halt ≠ .stuck) : Founded env halt s := fun hstuck => absurd hstuck h

theorem Founded.of_gone (h : Gone halt s) : Founded env halt s :=
  .of_ne (by rw [h.1]; exact Halt.noConfusion)

/-- Events can go out, under a budget. -/
structure Going (budget : Budget) (s : State) : Prop where
  isOpen : s.Open
  budget : s.spending.budget = budget

/-- A request is the latest that the model was asked. -/
structure Asking (budget : Budget) (past : List ModelRequest) (request : ModelRequest)
    (s : State) : Prop extends Going budget s where
  latest : s.world.requests = past ++ [request]

theorem Going.gave (h : Going budget s) (hg : Gave es l s s') (hl : l.spending.budget = budget) :
    Going budget s' where
  isOpen := hg.stays h.isOpen
  budget := by
    have hspending : s'.spending = l.spending := congrArg Ledger.spending hg.ledger
    rw [hspending, hl]

/-- What is neither the way to the consumer nor the budget does not count. -/
theorem Going.beside (h : Going budget s) (hchannel : s'.channel = s.channel)
    (hbudget : s'.spending.budget = s.spending.budget) : Going budget s' where
  isOpen := ⟨hchannel ▸ h.isOpen.opened, hchannel ▸ h.isOpen.room⟩
  budget := hbudget.trans h.budget

theorem Going.calm (h : Going budget s) (c : Calm env s s') : Going budget s' :=
  h.gave c.gave h.budget

theorem emit_going (h : Going budget s) {e : Event} (he : e.isFinish = false) :
    Ensures (emit env e) s (fun _ s' => Going budget s') (Founded env) :=
  (emit_gave h.isOpen he).mono (fun _ _ hg => h.gave hg h.budget) (fun _ _ hgone => .of_gone hgone)

/-! ## Model calls -/

theorem Asking.calm (h : Asking budget past request s) (c : Calm env s s') :
    Asking budget past request s' where
  toGoing := h.toGoing.calm c
  latest := by
    have hrequests : s'.world.requests = s.world.requests := congrArg (·.2.1) c.work
    rw [hrequests, h.latest]

theorem emitAll_asking (h : Asking budget past request s) (hes : ∀ e ∈ es, e.isPiece = true) :
    Ensures (emitAll env es) s (fun _ s' => Asking budget past request s') (Founded env) := by
  refine ensures_emitAll (I := fun _ => Asking budget past request) h (fun done e s₁ hdone h₁ => ?_)
  have he : e.isFinish = false := Event.not_finish_of_piece
    (hes e (hdone.subset (List.mem_append_right _ (List.mem_singleton_self e))))
  refine (emit_run h₁.isOpen.opened h₁.isOpen.room e).mono (fun _ s₂ h₂ => ?_)
    (fun _ _ hgone => .of_gone hgone.1)
  obtain ⟨s₀, c, rfl⟩ := h₂
  have hcalm := h₁.calm c
  exact ⟨⟨⟨he, hcalm.isOpen.room⟩, hcalm.budget⟩, hcalm.latest⟩

theorem takeChunk_asking (h : Asking budget past request s) (c : Chunk) :
    Ensures (takeChunk env c) s (fun _ s' => Asking budget past request s') (Founded env) :=
  ensures_takeChunk
    (emitAll_asking ⟨h.toGoing.beside rfl rfl, h.latest⟩ (Assembly.push_grew c).pieces)

/-- An attempt at an answer comes back, unless the model does not and there is no limit. -/
theorem attemptAnswer_going (h : Going budget s) (request : ModelRequest) :
    Ensures (attemptAnswer env request budget.model.timeout?) s (fun _ s' => Going budget s')
      (Founded env) := by
  refine ensures_attemptAnswer (I := fun _ => Asking budget s.world.requests request)
    ⟨h.beside rfl rfl, rfl⟩ (fun takes _ s₁ hnever h₁ => ?_)
    (fun _ _ step _ _ s₁ h₁ => takeChunk_asking h₁ step.2) (fun _ _ h₁ => h₁.toGoing)
    (fun _ _ h₁ => h₁.toGoing) (fun _ _ _ _ => .of_ne Halt.noConfusion)
    (fun _ _ _ _ => .of_ne Halt.noConfusion)
  refine (waitFor_ends Calm.refl takes _).mono (fun _ s₂ h₂ => h₁.calm h₂.1) (fun halt s₂ h₂ => ?_)
  obtain ⟨⟨-, hunlimited, htakes⟩, c⟩ := h₂
  have h₂ := h₁.calm c
  refine fun _ => .answer ?_ h₂.latest (hnever htakes)
  rw [h₂.budget]
  exact Option.map_eq_none_iff.mp hunlimited

theorem callModel_going (h : Going budget s) (ask : Ask) :
    Ensures (callModel env ask) s (fun _ s' => Going budget s') (Founded env) := by
  refine callModel_by_attempts (I := Going budget) h (fun spending hadmitted => ?_)
    (fun spending hadmitted n s₁ h₁ => ?_) (fun _ => .of_ne Halt.noConfusion)
  · obtain ⟨-, rfl⟩ := admitModel_eq hadmitted
    exact h.beside rfl rfl
  · obtain ⟨-, rfl⟩ := admitModel_eq hadmitted
    rw [h.budget]
    exact ensures_answerInTime (attemptAnswer_going h₁ _) (fun _ h₂ => h₂.beside rfl rfl)
      (fun _ _ => .of_ne Halt.noConfusion) (fun _ _ h₂ => h₂.beside rfl rfl)
      (fun _ _ _ => .of_ne Halt.noConfusion)

/-! ## Tool calls -/

theorem awaitClient_going (h : Going budget s) (call : Call) (args : Json) :
    Ensures (awaitClient env call args) s (fun _ s' => Going budget s') (Founded env) := by
  refine ensures_awaitClient (R := fun _ => Going budget)
    (fun _ _ _ => .of_ne Halt.noConfusion) (fun handle r _ _ => ?_)
    (fun handle s₁ result s₂ _ h₁ hwait => ?_)
  · have hbegan : Going budget ((s.withRendezvous r).note (.waitBegan handle.key)) :=
      h.beside rfl rfl
    exact (emit_gave hbegan.isOpen rfl).mono (fun _ _ hg => hbegan.gave hg hbegan.budget)
      (fun _ _ hgone => .of_gone hgone)
  · have c : Calm env s₁ (awaitSubmission env handle (s₁.now + env.frontendTimeoutMs) s₁).2 :=
      Calm.refl.after_awaitSubmission _ _
    rw [hwait] at c
    cases result with
    | payload value => exact (h₁.calm c).beside rfl rfl
    | timeout => exact .of_ne Halt.noConfusion
    | gone =>
      refine .of_ne ?_
      split <;> exact Halt.noConfusion

theorem workOff_going (h : Going budget s) (tool : Tool) (call : Call) (args : Json) :
    Ensures (workOff env tool call args) s (fun _ s' => Going budget s') (Founded env) :=
  ensures_workOff (fun _ => awaitClient_going h call args) (fun _ => emit_going h rfl)
    (fun _ => (runTool_gave tool args).mono (fun _ _ hg => h.gave hg h.budget)
      (fun _ _ hhangs _ => hhangs.2.2))

theorem complete_going (h : Going budget s) (call : Call) (args result : Json)
    (change : Option PlanChange) :
    Ensures (complete env call args result change) s (fun _ s' => Going budget s')
      (Founded env) := by
  have hfiled : Going budget (s.filed call args result) := h.beside rfl rfl
  refine ensures_complete (R := Going budget) (emit_going hfiled rfl) (fun _ _ h₁ => h₁)
    (fun _ s₁ h₁ => ?_)
  simp only [showPlan, ensures_bind, ensures_get]
  exact emit_going h₁ rfl

theorem changePlan_going (h : Going budget s) (tool : PlanTool) (args : Json) :
    Ensures (changePlan env tool args) s (fun _ s' => Going budget s') (Founded env) :=
  ensures_changePlan (fun _ _ _ => h.beside rfl rfl) (fun _ _ => h)

theorem admitTool_going (h : Going budget s) :
    Ensures admitTool s (fun _ s' => Going budget s') (Founded env) :=
  ensures_admitTool (fun _ => h.beside rfl rfl) (fun _ => h)

theorem dispatch_going (h : Going budget s) (call : Call) :
    Ensures (dispatch env call) s (fun _ s' => Going budget s') (Founded env) := by
  have hnoted : Going budget (s.note (.dispatch call)) := h.beside rfl rfl
  refine ensures_dispatch (fun e _ => complete_going hnoted _ _ _ _) (fun raw tool _ _ => ?_)
    (fun raw _ _ => ?_)
  · exact (changePlan_going hnoted tool _).imp fun _ _ h₁ => complete_going h₁ _ _ _ _
  · refine (admitTool_going hnoted).imp (fun denied s₁ h₁ => ?_)
    cases denied with
    | some denied => exact complete_going h₁ _ _ _ _
    | none =>
      cases env.tools.get? call.name with
      | none => exact complete_going h₁ _ _ _ _
      | some tool =>
        exact (workOff_going h₁ tool call _).imp fun _ _ h₂ => complete_going h₂ _ _ _ _

theorem dispatchAll_going (h : Going budget s) (calls : List Call) :
    Ensures (dispatchAll env calls) s (fun _ s' => Going budget s') (Founded env) := by
  induction calls generalizing s with
  | nil => exact h
  | cons call calls ih =>
    simp only [dispatchAll, ensures_bind]
    exact (dispatch_going h call).imp fun _ _ h₁ => ih h₁

/-! ## Moves -/

variable {rounds : Nat} {c : Station}

theorem commit_going (h : Going budget s) (turn : Turn) :
    Ensures (commit turn) s (fun _ s' => Going budget s') (Founded env) := by
  simp only [commit, ensures_ite]
  exact ⟨fun _ => h, fun _ => h.beside rfl rfl⟩

theorem ask_founded (h : Going budget s) {wanted : Ask} {keep : List Call → List Call}
    {next : List Call → Station} {denied : Station} :
    Ensures ((Move.ask wanted keep next denied).run env) s (fun _ _ => True) (Founded env) := by
  simp only [Move.run, ensures_bind]
  refine (callModel_going h wanted).imp (fun answer s₁ h₁ => ?_)
  cases answer with
  | none => trivial
  | some turn =>
    simp only [ensures_bind]
    refine (commit_going h₁ _).imp (fun _ s₂ h₂ => ?_)
    exact (dispatchAll_going h₂ _).imp fun _ _ _ => trivial

theorem Resting.going (h : Resting env s) : Going s.spending.budget s := by
  obtain ⟨k, p⟩ := h
  exact ⟨⟨p.ready.opened, p.ready.room⟩, rfl⟩

/-- A run is only stuck where it asks the model, and then it waits for ever. -/
theorem advance_founded (h : Resting env s)
    (hadv : (advance env rounds c).run s = (.error halt, s')) : Founded env halt s' := by
  have hstopped := advance_stopped h hadv
  have hdecides := decides env rounds s c
  have hrun : (((c.move env rounds s).run env).run s) = (.error halt, s') := hadv
  generalize c.move env rounds s = m at hstopped hdecides hrun
  cases hstopped with
  | halted _ =>
    cases hdecides
    exact .of_ne Halt.noConfusion
  | broke _ _ _ _ _ _ => exact (ask_founded h.going).of_run hrun
  | unanswered _ _ _ _ _ _ => exact (ask_founded h.going).of_run hrun
  | unmarked _ _ hgone => exact .of_gone hgone
  | unshown _ _ hgone => exact .of_gone hgone
  | untold _ _ hgone => exact .of_gone hgone

end AgentRun.Run
