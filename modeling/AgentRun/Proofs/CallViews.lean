import AgentRun.Proofs.ClientWaits
import AgentRun.Proofs.Emission

/-!
# One call, seen from four sides

A call that is answered is told four times: the consumer gets an event, the records an entry, the
conversation a message, and whoever had it answered the outcome. These agree whichever way the call
took (`ToldAlike`), and what else goes out with it, the echo before and the plan behind it, is told
by the state in which the call is taken up. A client that is late leaves nothing but the echo
(`Late`).
-/

namespace AgentRun.Run

/-- The arguments that a call is recorded with, behind some records. -/
def recordedArguments (records : List ToolRecord) (call : Call) : Json :=
  match call.arguments with
  | .ok raw => resolve records raw
  | .error _ => .str call.rawArguments

/-- The registered tool that a call is admitted to. -/
def admittedTo? (env : Env) (call : Call) (s : State) : Option Tool :=
  if takesSlot call && !s.spending.budget.tool.isSpent s.spending.toolCalls
  then env.tools.get? call.name else none

/-- What goes to the client of a call before its result. -/
def echoes (env : Env) (call : Call) (s : State) : List Event :=
  match admittedTo? env call s with
  | none => []
  | some tool =>
    if tool.kind = .backend then []
    else [.toolCall ⟨call.id, some call.name, some tool.kind.text,
      (recordedArguments s.records call).text, call.index⟩]

/-- What a call of a plan tool changes, if it succeeds, and the plan afterwards. -/
def planChange? (env : Env) (call : Call) (s : State) : Option (PlanChange × Plan) :=
  match call.arguments, PlanTool.ofName? call.name with
  | .ok raw, some tool => (tool.apply (resolve s.records raw)
      (fun i => IdKind.task.mint env.supply (s.assembly.minted + i)) s.plan).toOption
  | _, _ => none

/-- A call that was answered. -/
structure ToldAlike (env : Env) (call : Call) (s : State) (answer : Answer) (s' : State) :
    Prop where
  emitted : Emitted (echoes env call s ++ .toolResult call.id answer.result ::
    if answer.change.isSome then [.planUpdate s'.plan] else []) s s'
  record : s'.records =
    s.records ++ [⟨call.id, call.name, recordedArguments s.records call, answer.result⟩]
  message : s'.history = s.history ++ [.tool ⟨call.id, call.name, answer.result⟩]
  change : answer.change = (planChange? env call s).map Prod.fst
  plan : s'.plan = ((planChange? env call s).map Prod.snd).getD s.plan
  spending : s'.spending = charge s.spending call

/-- A call that the client did not answer in time. -/
structure Late (env : Env) (call : Call) (s s' : State) : Prop where
  asked : ∃ tool, admittedTo? env call s = some tool ∧ tool.kind = .frontend
  emitted : Emitted (echoes env call s) s s'
  records : s'.records = s.records
  history : s'.history = s.history
  plan : s'.plan = s.plan

/-- The call is admitted to a backend tool that never gives its result. -/
def Endless (env : Env) (call : Call) (s : State) : Prop :=
  ∃ tool, admittedTo? env call s = some tool ∧ tool.kind = .backend ∧
    Hangs env (invocationFor env call tool (recordedArguments s.records call)) s

variable {env : Env} {call : Call} {s s' s'' : State} {es es' : List Event} {l l' : Ledger}

/-! ## Waiting for the client -/

theorem emit_holding {handle : Handle} (h : s.Open) (hh : Holding handle s) (e : Event) :
    Ensures (emit env e) s (fun _ s' => Holding handle s') (fun _ _ => True) := by
  refine (emit_run h.opened h.room e).mono (fun _ s' hs' => ?_) (fun _ _ _ => trivial)
  obtain ⟨s₁, c, rfl⟩ := hs'
  exact ⟨(hh.calm c).sound, (hh.calm c).held⟩

/-- A client that is asked answers, is late or goes. -/
theorem awaitClient_gave (h : s.Open) (hsound : s.world.rendezvous.Sound)
    (hfree : s.world.rendezvous.isPending ⟨env.runId, call.id⟩ = false) (args : Json) :
    Ensures (awaitClient env call args) s
      (fun _ s' => Gave [echo call args .frontend] s.ledger s s')
      (fun halt s' => (halt = .failed (.frontendTimeout call.name env.frontendTimeoutMs) ∧
        Gave [echo call args .frontend] s.ledger s s') ∨ Gone halt s') := by
  obtain ⟨r₀, hregistered, hheld⟩ := Rendezvous.register_free hfree
  have hsound' := hsound.after_register ⟨env.runId, call.id⟩
  rw [hregistered] at hsound'
  refine ensures_awaitClient (R := fun handle s₁ =>
      Gave [echo call args .frontend] s.ledger s s₁ ∧ Holding handle s₁)
    (fun e r hreg => ?_) (fun handle r _ hreg => ?_) (fun handle s₁ result s₂ _ h₁ hwait => ?_)
  · rw [hregistered] at hreg
    cases hreg
  · rw [hregistered] at hreg
    obtain ⟨hhandle, rfl⟩ := Prod.mk.inj hreg
    obtain rfl := Except.ok.inj hhandle
    have hbegan : Gave [] s.ledger s (State.note (.waitBegan ⟨env.runId, call.id⟩)
        (s.withRendezvous r₀)) := (Gave.refl.withRendezvous r₀).note rfl
    refine ((emit_gave (hbegan.stays h) rfl).and (emit_holding (hbegan.stays h) ⟨hsound', hheld⟩
      (echo call args .frontend))).mono (fun _ s₁ h₁ => ?_) (fun halt s₁ h₁ => Or.inr h₁.1)
    exact ⟨hbegan.next h₁.1, h₁.2⟩
  · obtain ⟨hsent, hholding⟩ := h₁
    have hcame := awaitSubmission_came env (s₁.now + env.frontendTimeoutMs) hholding
    have hcalm : Calm env s₁ (awaitSubmission env handle (s₁.now + env.frontendTimeoutMs) s₁).2 :=
      Calm.refl.after_awaitSubmission _ _
    rw [hwait] at hcame hcalm
    have hreleased : Gave [echo call args .frontend] s.ledger s (s₂.released handle) :=
      ((hsent.calm hcalm).withRendezvous _).note rfl
    cases result with
    | payload value => exact hreleased
    | timeout => exact Or.inl ⟨rfl, hreleased⟩
    | gone =>
      have hgone : s₂.channel.connected = false := hcame
      simp only [hgone, Bool.false_eq_true, if_false]
      exact Or.inr ⟨rfl, hgone⟩

/-! ## Completing a call -/

theorem complete_gave (h : s.Open) (args result : Json) (change : Option PlanChange) :
    Ensures (complete env call args result change) s
      (fun answer s' => answer = ⟨result, change⟩ ∧ Gave (.toolResult call.id result ::
        if change.isSome then [.planUpdate s.plan] else [])
        (s.ledger.answered call args result) s s')
      (fun halt s' => Gone halt s') := by
  have hfiled : Gave [] (s.ledger.answered call args result) s (s.filed call args result) :=
    .of_beside rfl rfl rfl
  refine ensures_complete (R := fun s₁ =>
      Gave [.toolResult call.id result] (s.ledger.answered call args result) s s₁)
    ?_ (fun hchange s₁ h₁ => ?_) (fun hchange s₁ h₁ => ?_)
  · refine (emit_gave (hfiled.stays h) rfl).imp (fun _ s₁ h₁ => ?_)
    have hresult := hfiled.next h₁
    rwa [List.nil_append] at hresult
  · rw [hchange]
    exact ⟨rfl, h₁⟩
  · have hplan : s₁.plan = s.plan := congrArg Ledger.plan h₁.ledger
    simp only [hchange, if_true, showPlan, ensures_bind, ensures_get, hplan]
    exact (emit_gave (h₁.stays h) rfl).imp (fun _ s₂ h₂ => ⟨trivial, h₁.next h₂⟩)

/-- A call that is completed is told in the same way on all sides. -/
theorem complete_told {change : Option PlanChange} {s₁ : State} (plan : Plan) (h : s.Open)
    (hbefore : Gave (echoes env call s)
      { s.ledger with plan := plan, spending := charge s.spending call } s s₁) (result : Json)
    (hchange : change = (planChange? env call s).map Prod.fst)
    (hplan : plan = ((planChange? env call s).map Prod.snd).getD s.plan) :
    Ensures (complete env call (recordedArguments s.records call) result change) s₁
      (ToldAlike env call s) (fun halt s' => Gone halt s') := by
  refine (complete_gave (hbefore.stays h) _ result change).mono (fun answer s₂ h₂ => ?_)
    (fun _ _ h₂ => h₂)
  obtain ⟨rfl, hgave⟩ := h₂
  have hplan₁ : s₁.plan = plan := congrArg Ledger.plan hbefore.ledger
  rw [hbefore.ledger, hplan₁] at hgave
  have hall := hbefore.trans hgave
  have hplan₂ : s₂.plan = plan := congrArg Ledger.plan hall.ledger
  refine ⟨?_, congrArg Ledger.records hall.ledger, congrArg Ledger.history hall.ledger, hchange,
    hplan₂.trans hplan, congrArg Ledger.spending hall.ledger⟩
  rw [hplan₂]
  exact hall.toEmitted

/-! ## The ways of a call -/

theorem workOff_gave (h : s.Open) (hsound : s.world.rendezvous.Sound)
    (hfree : s.world.rendezvous.isPending ⟨env.runId, call.id⟩ = false) (tool : Tool)
    (args : Json) :
    Ensures (workOff env tool call args) s
      (fun _ s' => Gave (if tool.kind = .backend then [] else [echo call args tool.kind])
        s.ledger s s')
      (fun halt s' => (halt = .failed (.frontendTimeout call.name env.frontendTimeoutMs) ∧
          tool.kind = .frontend ∧ Gave [echo call args .frontend] s.ledger s s') ∨
        Gone halt s' ∨ halt = .stuck ∧ tool.kind = .backend ∧
          Hangs env (invocationFor env call tool args) s) := by
  refine ensures_workOff (fun hkind => ?_) (fun hkind => ?_) (fun hkind => ?_)
  · refine (awaitClient_gave h hsound hfree args).mono (fun _ s₁ h₁ => ?_) (fun halt s₁ h₁ => ?_)
    · rw [hkind]
      exact h₁
    · rcases h₁ with ⟨hlate, hgave⟩ | hgone
      · exact Or.inl ⟨hlate, hkind, hgave⟩
      · exact Or.inr (Or.inl hgone)
  · refine (emit_gave h rfl).mono (fun _ s₁ h₁ => ?_) (fun _ _ h₁ => Or.inr (Or.inl h₁))
    rw [hkind]
    exact h₁
  · refine (runTool_gave tool args).mono (fun _ s₁ h₁ => ?_) (fun halt s₁ h₁ => ?_)
    · rw [if_pos hkind]
      exact h₁
    · exact Or.inr (Or.inr ⟨h₁.1, hkind, h₁.2.1⟩)

theorem recordedArguments_of_ok {records : List ToolRecord} {raw : Json}
    (hargs : call.arguments = .ok raw) : recordedArguments records call = resolve records raw := by
  unfold recordedArguments
  rw [hargs]

theorem recordedArguments_of_malformed {records : List ToolRecord} {e : Json.SyntaxError}
    (hargs : call.arguments = .error e) :
    recordedArguments records call = .str call.rawArguments := by
  unfold recordedArguments
  rw [hargs]

theorem admittedTo?_of_free (hfree : takesSlot call = false) : admittedTo? env call s = none := by
  unfold admittedTo?
  rw [hfree]
  rfl

theorem echoes_of_none (hnone : admittedTo? env call s = none) : echoes env call s = [] := by
  unfold echoes
  rw [hnone]

/-- A plan tool changes the plan as it is told by the state in which its call is taken up. -/
theorem changePlan_gave {raw : Json} {tool : PlanTool} (hargs : call.arguments = .ok raw)
    (htool : PlanTool.ofName? call.name = some tool) (hs : Gave [] s.ledger s s')
    (hminted : s'.assembly = s.assembly) :
    Ensures (changePlan env tool (resolve s.records raw)) s'
      (fun r s₁ => r.2 = (planChange? env call s).map Prod.fst ∧
        Gave [] { s.ledger with plan := ((planChange? env call s).map Prod.snd).getD s.plan } s s₁)
      (fun _ _ => False) := by
  have hplan : s'.plan = s.plan := congrArg Ledger.plan hs.ledger
  have hchange : planChange? env call s = (tool.apply (resolve s.records raw)
      (fun i => IdKind.task.mint env.supply (s.assembly.minted + i)) s.plan).toOption := by
    unfold planChange?
    rw [hargs, htool]
  rw [hchange]
  refine ensures_changePlan (fun change plan happly => ?_) (fun e happly => ?_)
  · rw [hplan, hminted] at happly
    rw [happly]
    refine ⟨rfl, hs.trans (.of_beside ?_ rfl rfl)⟩
    rw [← hs.ledger]
    rfl
  · rw [hplan, hminted] at happly
    rw [happly]
    exact ⟨rfl, hs⟩

/-- How a call comes out that is not told in full. -/
def CutShort (env : Env) (call : Call) (s : State) (halt : Halt) (s' : State) : Prop :=
  (halt = .failed (.frontendTimeout call.name env.frontendTimeoutMs) ∧ Late env call s s') ∨
    Gone halt s' ∨ halt = .stuck ∧ Endless env call s

theorem CutShort.of_gone {x : RunM Answer} {s₁ : State}
    (h : Ensures x s₁ (ToldAlike env call s) (fun halt s' => Gone halt s')) :
    Ensures x s₁ (ToldAlike env call s) (CutShort env call s) :=
  h.mono (fun _ _ h₁ => h₁) (fun _ _ h₁ => Or.inr (Or.inl h₁))

/-- A call of no plan tool is counted and goes to its tool, or is denied and goes to none. -/
theorem admitTool_gave (env : Env) (hslot : takesSlot call = true) (hs : Gave [] s.ledger s s')
    (hworld : s'.world = s.world) :
    Ensures admitTool s'
      (fun denied s₁ => Gave [] { s.ledger with spending := charge s.spending call } s s₁ ∧
        s₁.world = s.world ∧
        admittedTo? env call s = if denied.isSome then none else env.tools.get? call.name)
      (fun _ _ => False) := by
  have hspending : s'.spending = s.spending := congrArg Ledger.spending hs.ledger
  refine ensures_admitTool (fun hleft => ?_) (fun hspent => ?_)
  · rw [hspending] at hleft ⊢
    refine ⟨hs.trans (.of_beside ?_ rfl rfl), hworld, by simp [admittedTo?, hslot, hleft]⟩
    rw [charge_of_left hslot hleft, ← hs.ledger]
    rfl
  · rw [hspending] at hspent
    refine ⟨?_, hworld, by simp [admittedTo?, hspent]⟩
    rw [charge_of_spent hspent]
    exact hs

/-- A call that was admitted is told when its tool has given a result. -/
theorem workOff_told {tool : Tool} {s₁ : State} (h : s.Open)
    (hsound : s.world.rendezvous.Sound)
    (hfree : s.world.rendezvous.isPending ⟨env.runId, call.id⟩ = false)
    (hplan : planChange? env call s = none) (hadmitted : admittedTo? env call s = some tool)
    (hcharged : Gave [] { s.ledger with spending := charge s.spending call } s s₁)
    (hworld : s₁.world = s.world) :
    Ensures (workOff env tool call (recordedArguments s.records call)) s₁
      (fun result s₂ => Ensures
        (complete env call (recordedArguments s.records call) result none) s₂
        (ToldAlike env call s) (CutShort env call s))
      (CutShort env call s) := by
  have hechoes : echoes env call s = if tool.kind = .backend then []
      else [echo call (recordedArguments s.records call) tool.kind] := by
    unfold echoes
    rw [hadmitted]
    rfl
  rw [← hworld] at hsound hfree
  refine (workOff_gave (hcharged.stays h) hsound hfree tool _).mono (fun result s₂ h₂ => ?_)
    (fun halt s₂ h₂ => ?_)
  · have hbefore := hcharged.next h₂
    rw [List.nil_append, ← hechoes] at hbefore
    exact CutShort.of_gone (complete_told s.plan h hbefore result (by rw [hplan]; rfl)
      (by rw [hplan]; rfl))
  · rcases h₂ with ⟨hlate, hkind, hgave⟩ | hgone | ⟨hstuck, hkind, hhangs⟩
    · have hasked := hcharged.next hgave
      rw [hkind] at hechoes
      refine Or.inl ⟨hlate, ⟨tool, hadmitted, hkind⟩, ?_, congrArg Ledger.records hasked.ledger,
        congrArg Ledger.history hasked.ledger, congrArg Ledger.plan hasked.ledger⟩
      rw [hechoes]
      exact hasked.toEmitted
    · exact Or.inr (Or.inl hgone)
    · refine Or.inr (Or.inr ⟨hstuck, tool, hadmitted, hkind, ?_⟩)
      -- The charge leaves the limits as they are.
      have hspending : s₁.spending = charge s.spending call :=
        congrArg Ledger.spending hcharged.ledger
      have hbudget : s₁.spending.budget = s.spending.budget := by
        rw [hspending, charge]
        split <;> rfl
      unfold Hangs State.now at hhangs ⊢
      rwa [hbudget, hworld] at hhangs

/-- However a call goes, it is told in full, or it is cut short. -/
theorem dispatch_told (h : s.Open) (hsound : s.world.rendezvous.Sound)
    (hfree : s.world.rendezvous.isPending ⟨env.runId, call.id⟩ = false) :
    Ensures (dispatch env call) s (ToldAlike env call s) (CutShort env call s) := by
  have htaken : Gave [] s.ledger s (s.note (.dispatch call)) := Gave.refl.note rfl
  -- A call that changes no plan and goes to no client is only completed.
  have completes {s₁ : State} (hplan : planChange? env call s = none)
      (hnone : admittedTo? env call s = none)
      (hcharged : Gave [] { s.ledger with spending := charge s.spending call } s s₁)
      (result : Json) : Ensures
        (complete env call (recordedArguments s.records call) result none) s₁
        (ToldAlike env call s) (CutShort env call s) := by
    rw [← echoes_of_none hnone] at hcharged
    exact CutShort.of_gone (complete_told s.plan h hcharged result (by rw [hplan]; rfl)
      (by rw [hplan]; rfl))
  refine ensures_dispatch (fun e hargs => ?_) (fun raw tool hargs htool => ?_)
    (fun raw hargs htool => ?_)
  · have hslot := takesSlot_of_malformed hargs
    have hplan : planChange? env call s = none := by
      unfold planChange?
      rw [hargs]
    rw [← recordedArguments_of_malformed hargs]
    refine completes hplan (admittedTo?_of_free hslot) ?_ _
    rw [charge_of_free hslot]
    exact htaken
  · have hslot := takesSlot_of_planTool htool
    refine (changePlan_gave hargs htool htaken rfl).mono (fun r s₁ h₁ => ?_)
      (fun _ _ h₁ => h₁.elim)
    rw [← recordedArguments_of_ok hargs]
    refine CutShort.of_gone (complete_told _ h ?_ _ h₁.1 rfl)
    rw [echoes_of_none (admittedTo?_of_free hslot), charge_of_free hslot]
    exact h₁.2
  · have hplan : planChange? env call s = none := by
      unfold planChange?
      rw [hargs, htool]
    refine (admitTool_gave env (takesSlot_of_ok hargs htool) htaken rfl).mono
      (fun denied s₁ h₁ => ?_) (fun _ _ h₁ => h₁.elim)
    obtain ⟨hcharged, hworld, hadmitted⟩ := h₁
    rw [← recordedArguments_of_ok hargs]
    cases denied with
    | some denied => exact completes hplan hadmitted hcharged _
    | none =>
      rw [Option.isSome_none, if_neg Bool.false_ne_true] at hadmitted
      cases hget : env.tools.get? call.name with
      | none => exact completes hplan (hadmitted.trans hget) hcharged _
      | some tool =>
        exact workOff_told h hsound hfree hplan (hadmitted.trans hget) hcharged hworld

theorem admittedTo?_registered {tool : Tool} (h : admittedTo? env call s = some tool) :
    env.tools.get? call.name = some tool := by
  unfold admittedTo? at h
  split at h
  · exact h
  · cases h

/-- A call is taken up with an open channel, and no wait is registered for it. It comes out as its
result, which the event, the record, the message and the outcome tell alike; or, as long as the
consumer is there, as a client that is late, who was sent the echo and nothing else, or not at all,
because its backend tool never gives a result for it and nothing limits the time of tools. -/
theorem call_views_agree {r : Except Halt Answer} (env : Env) (call : Call) (s : State)
    (h : s.Open) (hsound : s.world.rendezvous.Sound)
    (hfree : s.world.rendezvous.isPending ⟨env.runId, call.id⟩ = false)
    (hrun : (dispatch env call).run s = (r, s')) :
    (∀ answer, r = .ok answer → ToldAlike env call s answer s') ∧
    (s'.channel.connected = true → (∃ answer, r = .ok answer) ∨
      (r = .error (.failed (.frontendTimeout call.name env.frontendTimeoutMs)) ∧
        Late env call s s') ∨
      r = .error .stuck ∧ Endless env call s) ∧
    ∀ tool, env.tools.get? call.name = some tool → tool.kind = .backend → ¬ Endless env call s →
      s'.channel.connected = true → ∃ answer, r = .ok answer := by
  have hcame := (dispatch_told h hsound hfree).of_run hrun
  cases r with
  | ok answer =>
    refine ⟨fun other hother => ?_, fun _ => Or.inl ⟨answer, rfl⟩, fun _ _ _ _ _ => ⟨answer, rfl⟩⟩
    obtain rfl := Except.ok.inj hother
    exact hcame
  | error halt =>
    refine ⟨fun _ hother => (by cases hother), fun hconn => ?_,
      fun tool hget hkind hends hconn => ?_⟩
    · rcases hcame with ⟨rfl, hlate⟩ | ⟨-, hgone⟩ | ⟨rfl, hendless⟩
      · exact Or.inr (Or.inl ⟨rfl, hlate⟩)
      · exact absurd (hconn.symm.trans hgone) (by decide)
      · exact Or.inr (Or.inr ⟨rfl, hendless⟩)
    · rcases hcame with ⟨-, hlate⟩ | ⟨-, hgone⟩ | ⟨-, hendless⟩
      · obtain ⟨asked, hasked, hfrontend⟩ := hlate.asked
        have hsame := (admittedTo?_registered hasked).symm.trans hget
        rw [Option.some.inj hsame, hkind] at hfrontend
        cases hfrontend
      · exact absurd (hconn.symm.trans hgone) (by decide)
      · exact absurd hendless hends

/-- A call of a client tool, as the model makes it. -/
def confirmation : Call := ⟨"c1", "confirm", "\x7b\x7d", 0⟩

/-- The client says yes, and everybody is told so. -/
theorem confirmation_is_told :
    ((dispatch (confirming.start agreeing (.new 1)).1 confirmation).run
        (confirming.start agreeing (.new 1)).2).1 = .ok ⟨.bool true, none⟩ ∧
      ToldAlike (confirming.start agreeing (.new 1)).1 confirmation
        (confirming.start agreeing (.new 1)).2 ⟨.bool true, none⟩
        ((dispatch (confirming.start agreeing (.new 1)).1 confirmation).run
          (confirming.start agreeing (.new 1)).2).2 := by
  have hanswer : ((dispatch (confirming.start agreeing (.new 1)).1 confirmation).run
      (confirming.start agreeing (.new 1)).2).1 = .ok ⟨.bool true, none⟩ := by decide +kernel
  have hopen : (confirming.start agreeing (.new 1)).2.Open := ⟨by decide +kernel, by decide +kernel⟩
  obtain ⟨htold, -, -⟩ := call_views_agree (confirming.start agreeing (.new 1)).1 confirmation
    (confirming.start agreeing (.new 1)).2 hopen Rendezvous.Sound.empty (by decide +kernel) rfl
  exact ⟨hanswer, htold _ hanswer⟩

end AgentRun.Run
