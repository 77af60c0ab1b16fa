import AgentRun.Proofs.Delivery
import AgentRun.Run.Dispatch

/-!
# What answering a call does

A call that is answered leaves its entry, entries that serve it (its echo, its invocations, its
wait), its result and, if it changed the plan, the plan. The ledger gets one record and one message
with that result, and the budget is charged as the call says (`charge`). A call that halts
the run leaves nothing in the records and in the conversation, unless the client is gone.
-/

namespace AgentRun

namespace Run

/-- Whether a call takes a place in the budget if there is one: a call with arguments that are JSON
and of no plan tool. -/
def takesSlot (c : Call) : Bool := c.arguments.isOk && !PlanTool.isName c.name

/-- A call is one for a tool of the client, if the budget has a place for it. -/
def Env.AsksClient (env : Env) (call : Call) : Prop :=
  takesSlot call = true ∧ ∃ tool, env.tools.get? call.name = some tool ∧ tool.kind = .frontend

/-- A result says that the budget denies its call. -/
def IsDenial (result : Json) : Prop := ∃ e : BudgetExceeded, result = failureResult e.message

/-- What is spent after a call. -/
def charge (sp : Spending) (c : Call) : Spending :=
  if takesSlot c && !sp.budget.tool.isSpent sp.toolCalls then
    { sp with toolCalls := sp.toolCalls + 1 }
  else sp

/-- The ledger with an answered call. -/
def Ledger.answered (l : Ledger) (c : Call) (args result : Json) : Ledger :=
  { l with
    history := l.history ++ [.tool ⟨c.id, c.name, result⟩]
    records := l.records ++ [⟨c.id, c.name, args, result⟩] }

/-- The entries that a call can leave between its own and its result. -/
def Entry.Serves (c : Call) : Entry → Prop
  | .event (.toolCall p) => p.id = c.id
  | .invocation i => i.context.callId = c.id
  | .waitBegan key => key.callId = c.id
  | .waitEnded key => key.callId = c.id
  | _ => False

/-- The halts that a call can bring about. -/
inductive CallFault : Halt → Prop
  /-- Its wait is refused. -/
  | refused (e : RendezvousError) : CallFault (.failed (.rendezvous e))
  /-- The client did not answer it in time. -/
  | timedOut (tool : String) (timeoutMs : Nat) :
      CallFault (.failed (.frontendTimeout tool timeoutMs))
  /-- Its tool never ends. -/
  | stuck : CallFault .stuck

/-- What is shown of the plan after a call. -/
inductive Shows : Plan → Plan → List Entry → Prop
  /-- The plan is as before. -/
  | same (p : Plan) : Shows p p []
  | changed {p q : Plan} {tool : PlanTool} {args : Json} {fresh : Nat → String}
      {change : PlanChange} (h : tool.apply args fresh p = .ok (change, q)) :
      Shows p q [.event (.planUpdate q)]

/-- What a call that was answered leaves, and the ledger before and after it. -/
inductive Answered (call : Call) (l : Ledger) : List Entry → Ledger → Prop
  | answered {u shown : List Entry} {plan : Plan} (args result : Json)
      (hu : ∀ e ∈ u, e.Serves call) (hshown : Shows l.plan plan shown) :
      Answered call l (.dispatch call :: u ++ .event (.toolResult call.id result) :: shown)
        { l.answered call args result with
          plan := plan
          spending := charge l.spending call }

/-- What a call that halted the run leaves, and the ledger before and after it. -/
inductive Unanswered (call : Call) (l : Ledger) : List Entry → Ledger → Prop
  | unanswered {u : List Entry} (hu : ∀ e ∈ u, e.Serves call) :
      Unanswered call l (.dispatch call :: u) { l with spending := charge l.spending call }

/-- What a call that was answered leaves when the client is found gone before all of its answer is
out. -/
inductive Unshown (call : Call) (l : Ledger) : List Entry → Ledger → Prop
  | unshown {u shown done : List Entry} {plan : Plan} (args result : Json)
      (hu : ∀ e ∈ u, e.Serves call) (hshown : Shows l.plan plan shown)
      (hdone : done <+: .event (.toolResult call.id result) :: shown) :
      Unshown call l (.dispatch call :: u ++ done)
        { l.answered call args result with
          plan := plan
          spending := charge l.spending call }

/-- The run stands where a call was answered. -/
def StandsAnswered (env : Env) (call : Call) (t : List Entry) (l : Ledger) (s : State) : Prop :=
  ∃ v l' k, Answered call l v l' ∧ Stands env (t ++ v) l' (.start k) s

/-- The run stands where a call halted it, or where the client was found gone. -/
def StandsHalted (env : Env) (call : Call) (t : List Entry) (l : Ledger) (h : Halt) (s : State) :
    Prop :=
  ∃ v l' a, Stands env (t ++ v) l' a s ∧
    ((CallFault h ∨ Gone h s) ∧ Unanswered call l v l' ∨ Gone h s ∧ Unshown call l v l')

variable {env : Env} {t : List Entry} {l : Ledger} {a : Assembly} {s s' : State} {call : Call}

/-- Whether an entry is made while a call is answered. -/
def Entry.isOfCall : Entry → Bool
  | .dispatch _ => true
  | .invocation _ => true
  | .waitBegan _ => true
  | .waitEnded _ => true
  | .event (.toolCall _) => true
  | .event (.toolResult _ _) => true
  | .event (.planUpdate _) => true
  | _ => false

theorem Entry.Serves.ofCall {e : Entry} (h : e.Serves call) : e.isOfCall = true := by
  cases e with
  | event e =>
    cases e with
    | toolCall => rfl
    | _ => exact h.elim
  | invocation => rfl
  | waitBegan => rfl
  | waitEnded => rfl
  | _ => exact h.elim

theorem Entry.Serves.quiet {e : Entry} (h : e.Serves call) : e.isQuiet = true := by
  cases e with
  | answer => exact h.elim
  | dispatch => exact h.elim
  | event e =>
    cases e with
    | toolCall => rfl
    | _ => exact h.elim
  | _ => rfl

theorem taken_ofCall {u : List Entry} (hu : ∀ e ∈ u, e.Serves call) :
    ∀ e ∈ Entry.dispatch call :: u, e.isOfCall = true := by
  intro e he
  rcases List.mem_cons.mp he with rfl | he
  · rfl
  · exact (hu e he).ofCall

theorem shown_ofCall {shown : List Entry} {p q : Plan} (h : Shows p q shown) (callId : String)
    (result : Json) :
    ∀ e ∈ Entry.event (.toolResult callId result) :: shown, e.isOfCall = true := by
  intro e he
  rcases List.mem_cons.mp he with rfl | he
  · rfl
  · cases h with
    | same => exact absurd he List.not_mem_nil
    | changed happly =>
      obtain rfl := List.mem_singleton.mp he
      rfl

section OfCall

variable {v : List Entry} {l' : Ledger}

theorem Answered.ofCall (h : Answered call l v l') : ∀ e ∈ v, e.isOfCall = true := by
  cases h with
  | answered args result hu hshown =>
    intro e he
    rcases List.mem_append.mp he with he | he
    · exact taken_ofCall hu e he
    · exact shown_ofCall hshown _ _ e he

theorem Unanswered.ofCall (h : Unanswered call l v l') : ∀ e ∈ v, e.isOfCall = true := by
  cases h with
  | unanswered hu => exact taken_ofCall hu

theorem Unshown.ofCall (h : Unshown call l v l') : ∀ e ∈ v, e.isOfCall = true := by
  cases h with
  | unshown args result hu hshown hdone =>
    intro e he
    rcases List.mem_append.mp he with he | he
    · exact taken_ofCall hu e he
    · exact shown_ofCall hshown _ _ e (hdone.subset he)

/-- A call asks the model for nothing. -/
theorem requestsOf_ofCall (h : ∀ e ∈ v, e.isOfCall = true) : requestsOf v = [] :=
  List.filterMap_eq_nil_iff.mpr fun e he => by
    cases e with
    | attempt => cases h _ he
    | _ => rfl

end OfCall

/-- A run that stands where only entries that serve a call came after a trail. -/
def Serving (env : Env) (call : Call) (t : List Entry) (l : Ledger) (a : Assembly) (s : State) :
    Prop :=
  ∃ u, (∀ e ∈ u, e.Serves call) ∧ Stands env (t ++ u) l a s

namespace Serving

theorem start (p : Stands env t l a s) : Serving env call t l a s :=
  ⟨[], fun _ h => absurd h List.not_mem_nil, by simpa using p⟩

theorem calm (p : Serving env call t l a s) (c : Calm env s s') : Serving env call t l a s' := by
  obtain ⟨u, hu, p⟩ := p
  exact ⟨u, hu, p.calm c⟩

theorem withWorld (p : Serving env call t l a s) (w : World) :
    Serving env call t l a { s with world := w } := by
  obtain ⟨u, hu, p⟩ := p
  exact ⟨u, hu, p.withWorld w⟩

theorem snoc {u : List Entry} {e : Entry} (hu : ∀ e ∈ u, e.Serves call) (he : e.Serves call) :
    ∀ f ∈ u ++ [e], f.Serves call := by
  intro f hf
  rcases List.mem_append.mp hf with hf | hf
  · exact hu f hf
  · exact List.mem_singleton.mp hf ▸ he

theorem note (p : Serving env call t l a s) {e : Entry} (hs : e.Serves call)
    (he : e.isSubmission = false) (hn : e.event? = none) : Serving env call t l a (s.note e) := by
  obtain ⟨u, hu, p⟩ := p
  refine ⟨u ++ [e], snoc hu hs, ?_⟩
  rw [← List.append_assoc]
  exact p.note he hn

end Serving

/-! ## The parts of a call -/

/-- The state in which a wait is over. -/
def State.released (h : Handle) (s : State) : State :=
  (s.withRendezvous (s.world.rendezvous.release h)).note (.waitEnded h.key)

/-- The state in which the body of a tool was handed to a worker. -/
def State.invoked (env : Env) (i : Invocation) (s : State) : State :=
  { s.note (.invocation i) with world := { s.world with
    invocations := s.world.invocations ++ [i]
    workers := s.world.workers.assign s.now
      ((env.bodies.invoke s.world.invocations i).takes.map (s.now + ·)) } }

/-- The state in which a call is written down with its result. -/
def State.filed (call : Call) (args result : Json) (s : State) : State :=
  { s with
    records := s.records ++ [⟨call.id, call.name, args, result⟩]
    history := s.history ++ [.tool ⟨call.id, call.name, result⟩] }

theorem Rendezvous.register_key {r r' : Rendezvous} {key : WaitKey} {h : Handle}
    (hreg : r.register key = (.ok h, r')) : h.key = key := by
  unfold Rendezvous.register at hreg
  split at hreg
  · cases hreg
  · cases hreg
    rfl

section Parts

variable {E : Halt → State → Prop} {args : Json}

/-- A wait is refused, or it begins before the call goes out and is over however it comes out. -/
theorem ensures_awaitClient {Q : Json → State → Prop} {R : Handle → State → Prop}
    (refused : ∀ e r, s.world.rendezvous.register ⟨env.runId, call.id⟩ = (.error e, r) →
      E (.failed (.rendezvous e)) (s.withRendezvous r))
    (begun : ∀ handle r, handle.key = ⟨env.runId, call.id⟩ →
      s.world.rendezvous.register ⟨env.runId, call.id⟩ = (.ok handle, r) →
      Ensures (emit env (echo call args .frontend))
        ((s.withRendezvous r).note (.waitBegan handle.key)) (fun _ s₁ => R handle s₁)
        (fun halt s₁ => E halt (s₁.released handle)))
    (came : ∀ handle s₁ result s₂, handle.key = ⟨env.runId, call.id⟩ → R handle s₁ →
      awaitSubmission env handle (s₁.now + env.frontendTimeoutMs) s₁ = (result, s₂) →
      match result with
        | .payload value => Q value (s₂.released handle)
        | .timeout => E (.failed (.frontendTimeout call.name env.frontendTimeoutMs))
            (s₂.released handle)
        | .gone => E (.failed (if s₂.channel.connected then .rendezvous .abandoned
            else .consumerGone)) (s₂.released handle)) :
    Ensures (awaitClient env call args) s Q E := by
  simp only [awaitClient, ensures_bind, ensures_get]
  rcases hreg : s.world.rendezvous.register ⟨env.runId, call.id⟩ with ⟨e | handle, r⟩
  · exact refused e r hreg
  · have hkey : handle.key = ⟨env.runId, call.id⟩ := Rendezvous.register_key hreg
    simp only [ensures_bind, ensures_set, ensures_tryCatch, ensures_modify, ensures_throw,
      ensures_get]
    rw [← hkey]
    refine (begun handle r hkey hreg).imp (fun _ s₁ h₁ => ?_)
    rcases hwait : awaitSubmission env handle (s₁.now + env.frontendTimeoutMs) s₁ with ⟨result, s₂⟩
    have hcame := came handle s₁ result s₂ hkey h₁ hwait
    cases result <;> exact hcame

/-- A call is filed, and its result goes out before the plan. -/
theorem ensures_complete {Q : Answer → State → Prop} {R : State → Prop} {result : Json}
    {change : Option PlanChange}
    (shown : Ensures (emit env (.toolResult call.id result)) (s.filed call args result)
      (fun _ s₁ => R s₁) E)
    (done : change.isSome = false → ∀ s₁, R s₁ → Q ⟨result, change⟩ s₁)
    (changed : change.isSome = true → ∀ s₁, R s₁ →
      Ensures (showPlan env) s₁ (fun _ s₂ => Q ⟨result, change⟩ s₂) E) :
    Ensures (complete env call args result change) s Q E := by
  simp only [complete, ensures_bind, ensures_modify]
  refine shown.imp (fun _ s₁ h₁ => ?_)
  cases hchange : change.isSome with
  | false => exact done hchange s₁ h₁
  | true =>
    simp only [if_true, ensures_bind, ensures_pure]
    exact changed hchange s₁ h₁

/-- A plan tool changes the plan and mints names for it, or it leaves both and says why. -/
theorem ensures_changePlan {Q : Json × Option PlanChange → State → Prop} {tool : PlanTool}
    (changed : ∀ change plan, tool.apply args
        (fun i => IdKind.task.mint env.supply (s.assembly.minted + i)) s.plan = .ok (change, plan) →
      Q (change.result, some change) { s with
        plan := plan
        assembly := { s.assembly with minted := s.assembly.minted + change.minted } })
    (refused : ∀ e, tool.apply args
        (fun i => IdKind.task.mint env.supply (s.assembly.minted + i)) s.plan = .error e →
      Q (failureResult e.message, none) s) :
    Ensures (changePlan env tool args) s Q E := by
  simp only [changePlan, ensures_bind, ensures_get]
  cases happly : tool.apply args
      (fun i => IdKind.task.mint env.supply (s.assembly.minted + i)) s.plan with
  | error e => exact refused e happly
  | ok changes => exact changed changes.1 changes.2 happly

/-- A call takes a place in the budget or is denied one. -/
theorem ensures_admitTool {Q : Option BudgetExceeded → State → Prop}
    (admitted : s.spending.budget.tool.isSpent s.spending.toolCalls = false →
      Q none { s with
        spending := { s.spending with toolCalls := s.spending.toolCalls + 1 } })
    (denied : s.spending.budget.tool.isSpent s.spending.toolCalls = true →
      Q (some ⟨.tool, s.spending.budget.tool.maxCalls⟩) s) :
    Ensures admitTool s Q E := by
  simp only [admitTool, Spending.admitTool, ensures_bind, ensures_get]
  cases hspent : s.spending.budget.tool.isSpent s.spending.toolCalls with
  | false => exact admitted hspent
  | true => exact denied hspent

/-- An invocation hands the body to a worker and comes back with its result, or with nothing under a
deadline. Without one it waits for ever for a body that never ends. -/
theorem ensures_invoke {Q : Option Json → State → Prop} {i : Invocation} {deadline : Option Nat}
    (ended : ∀ s₁, Calm env (s.invoked env i) s₁ →
      Q (some (env.bodies.invoke s.world.invocations i).outcome.result) s₁)
    (late : ∀ s₁, Calm env (s.invoked env i) s₁ → deadline ≠ none → Q none s₁)
    (never : ∀ s₁, Calm env (s.invoked env i) s₁ → deadline = none →
      (env.bodies.invoke s.world.invocations i).takes = none → E .stuck s₁) :
    Ensures (invoke env i deadline) s Q E := by
  simp only [invoke, ensures_bind, ensures_get, ensures_set, ensures_modify]
  refine (waitFor_ends (Calm.refl.after_passTime _).after_takeStep _ deadline).mono
    (fun inTime s₁ h₁ => ?_) (fun halt s₁ h₁ => ?_)
  · cases inTime with
    | true => exact ended s₁ h₁.1
    | false => exact late s₁ h₁.1 fun hnone => Bool.false_ne_true (h₁.2 hnone)
  · obtain ⟨⟨rfl, hnone, hnever⟩, c⟩ := h₁
    exact never s₁ c hnone hnever

/-- An attempt has the tool invoked as soon as a worker is free, unless there are no workers or none
is free in time. -/
theorem ensures_attemptTool {Q : Option Json → State → Prop} {i : Invocation} {limit : Option Nat}
    (closed : ∀ s₁, Calm env s s₁ → Q (some (failureResult "tool worker pool closed")) s₁)
    (late : ∀ s₁, Calm env s s₁ → limit ≠ none → Q none s₁)
    (never : ∀ s₁, Calm env s s₁ → limit = none → s.world.workers.freeFrom s.now = none →
      E .stuck s₁)
    (free : ∀ s₁, Calm env s s₁ → Ensures (invoke env i (limit.map (s.now + ·))) s₁ Q E) :
    Ensures (attemptTool env i limit) s Q E := by
  simp only [attemptTool, ensures_bind, ensures_get, ensures_modify, ensures_ite, ensures_pure]
  have c : Calm env s (takeStep env s) := Calm.refl.after_takeStep
  refine ⟨fun _ => closed _ c, fun _ => (waitFor_ends c _ _).mono (fun inTime s₁ h₁ => ?_)
    (fun halt s₁ h₁ => ?_)⟩
  · refine ⟨fun _ => free s₁ h₁.1, fun hlate => late s₁ h₁.1 fun hnone => hlate (h₁.2 ?_)⟩
    rw [hnone]
    rfl
  · obtain ⟨⟨rfl, hnone, hbusy⟩, c₁⟩ := h₁
    exact never s₁ c₁ (Option.map_eq_none_iff.mp hnone) (Option.map_eq_none_iff.mp hbusy)

/-- A backend tool gives the result of the attempt that comes to one, or says that none did. -/
theorem ensures_runTool {Q : Json → State → Prop} {I : State → Prop} {tool : Tool} (start : I s)
    (attempted : ∀ s₁, I s₁ → Ensures (attemptTool env
        ⟨tool.definition.name, args, ⟨env.runId, env.agent.id, call.id⟩⟩
        s.spending.budget.tool.timeout?) s₁
      (fun result s₂ => match result with
        | some value => Q value s₂
        | none => I s₂) E)
    (late : ∀ s₁, I s₁ →
      Q (failureResult ("tool " ++ s.spending.budget.tool.timeoutError.message)) s₁) :
    Ensures (runTool env tool call args) s Q E := by
  simp only [runTool, ensures_bind, ensures_get]
  refine (ensures_retrying (Q := Q) (fun _ s₁ h₁ => ?_) _ 0 s start).imp fun result s₁ h₁ => ?_
  · refine (attempted s₁ h₁).imp fun result s₂ h₂ => ?_
    cases result <;> exact h₂
  · cases result with
    | some value => exact h₁
    | none => exact late s₁ h₁

/-- A call is worked off where its tool is at home. -/
theorem ensures_workOff {Q : Json → State → Prop} {tool : Tool}
    (awaited : tool.kind = .frontend → Ensures (awaitClient env call args) s Q E)
    (echoed : tool.kind = .action → Ensures (emit env (echo call args .action)) s
      (fun _ s₁ => Q (.obj [("dispatched", .bool true), ("ok", .bool true)]) s₁) E)
    (worked : tool.kind = .backend → Ensures (runTool env tool call args) s Q E) :
    Ensures (workOff env tool call args) s Q E := by
  unfold workOff
  cases hkind : tool.kind with
  | frontend => exact awaited hkind
  | action =>
    simp only [ensures_bind, ensures_pure]
    exact echoed hkind
  | backend => exact worked hkind

end Parts

/-! ## The kinds of tools -/

theorem echo_spec (p : Serving env call t l a s) (args : Json) (kind : ToolKind) :
    Ensures (emit env (echo call args kind)) s (fun _ s' => Serving env call t l a s')
      (fun halt s' => Gone halt s' ∧ Serving env call t l a s') := by
  obtain ⟨u, hu, p⟩ := p
  refine (emit_spec (e := echo call args kind) p rfl (minted_of_no_block rfl)).mono
    (fun _ s' p' => ?_) (fun halt s' h => ⟨h.1, u, hu, h.2⟩)
  have serves : Entry.Serves call (.event (echo call args kind)) := rfl
  refine ⟨u ++ [.event (echo call args kind)], Serving.snoc hu serves, ?_⟩
  rw [← List.append_assoc]
  exact p'

theorem Serving.released (p : Serving env call t l a s) {handle : Handle}
    (hkey : handle.key = ⟨env.runId, call.id⟩) : Serving env call t l a (s.released handle) := by
  have serves : Entry.Serves call (.waitEnded handle.key) := by
    rw [hkey]
    rfl
  exact (p.withWorld _).note serves rfl rfl

theorem awaitClient_spec (p : Serving env call t l a s) (args : Json) :
    Ensures (awaitClient env call args) s (fun _ s' => Serving env call t l a s')
      (fun halt s' => (CallFault halt ∨ Gone halt s') ∧ Serving env call t l a s') := by
  refine ensures_awaitClient (R := fun _ s₁ => Serving env call t l a s₁)
    (fun e r _ => ⟨Or.inl (.refused e), p.withWorld _⟩) (fun handle r hkey _ => ?_)
    (fun handle s₁ result s₂ hkey p₁ hwait => ?_)
  · have serves : Entry.Serves call (.waitBegan handle.key) := by
      rw [hkey]
      rfl
    exact (echo_spec ((p.withWorld _).note serves rfl rfl) args .frontend).mono (fun _ _ p₁ => p₁)
      (fun halt s₁ h => ⟨Or.inr ⟨h.1.1, h.1.2⟩, h.2.released hkey⟩)
  · have c : Calm env s₁ (awaitSubmission env handle (s₁.now + env.frontendTimeoutMs) s₁).2 :=
      Calm.refl.after_awaitSubmission _ _
    rw [hwait] at c
    have p₂ : Serving env call t l a (s₂.released handle) := (p₁.calm c).released hkey
    cases result with
    | payload value => exact p₂
    | timeout => exact ⟨Or.inl (.timedOut _ _), p₂⟩
    | gone =>
      refine ⟨?_, p₂⟩
      cases hconn : s₂.channel.connected with
      | false => exact Or.inr ⟨rfl, hconn⟩
      | true => exact Or.inl (.refused .abandoned)

theorem invoke_spec (p : Serving env call t l a s) {i : Invocation}
    (hi : i.context.callId = call.id) (deadline : Option Nat) :
    Ensures (invoke env i deadline) s (fun _ s' => Serving env call t l a s')
      (fun halt s' => halt = .stuck ∧ Serving env call t l a s') := by
  have serves : Entry.Serves call (.invocation i) := hi
  have invoked : Serving env call t l a (s.invoked env i) := (p.note serves rfl rfl).withWorld _
  exact ensures_invoke (fun _ c => invoked.calm c) (fun _ c _ => invoked.calm c)
    (fun _ c _ _ => ⟨rfl, invoked.calm c⟩)

theorem attemptTool_spec (p : Serving env call t l a s) {i : Invocation}
    (hi : i.context.callId = call.id) (limit : Option Nat) :
    Ensures (attemptTool env i limit) s (fun _ s' => Serving env call t l a s')
      (fun halt s' => halt = .stuck ∧ Serving env call t l a s') :=
  ensures_attemptTool (fun _ c => p.calm c) (fun _ c _ => p.calm c)
    (fun _ c _ _ => ⟨rfl, p.calm c⟩) (fun _ c => invoke_spec (p.calm c) hi _)

theorem runTool_spec (p : Serving env call t l a s) (tool : Tool) (args : Json) :
    Ensures (runTool env tool call args) s (fun _ s' => Serving env call t l a s')
      (fun halt s' => halt = .stuck ∧ Serving env call t l a s') := by
  refine ensures_runTool p (fun s₁ p₁ => ?_) (fun _ p₁ => p₁)
  refine (attemptTool_spec p₁ rfl _).imp (fun result s₂ p₂ => ?_)
  cases result <;> exact p₂

/-- Working a call off leaves entries that serve it, and no more. -/
theorem workOff_spec (p : Serving env call t l a s) (tool : Tool) (args : Json) :
    Ensures (workOff env tool call args) s (fun _ s' => Serving env call t l a s')
      (fun halt s' => (CallFault halt ∨ Gone halt s') ∧ Serving env call t l a s') :=
  ensures_workOff (fun _ => awaitClient_spec p args)
    (fun _ => (echo_spec p args .action).mono (fun _ _ h => h) (fun _ _ h => ⟨Or.inr h.1, h.2⟩))
    (fun _ => (runTool_spec p tool args).mono (fun _ _ h => h)
      (fun _ _ h => ⟨Or.inl (h.1 ▸ .stuck), h.2⟩))

/-! ## Answering a call -/

/-- A call is completed with its result and the plan, if that is shown. -/
theorem complete_spec {k : Nat} {plan : Plan} {shown : List Entry} {change : Option PlanChange}
    (p : Serving env call (t ++ [.dispatch call])
      { l with plan := plan, spending := charge l.spending call } (.start k) s)
    (args result : Json) (hshown : Shows l.plan plan shown)
    (hchange : shown = if change.isSome then [.event (.planUpdate plan)] else []) :
    Ensures (complete env call args result change) s
      (fun _ s' => StandsAnswered env call t l s') (StandsHalted env call t l) := by
  obtain ⟨u, hu, p⟩ := p
  have filed : Stands env (t ++ [.dispatch call] ++ u)
      { l.answered call args result with plan := plan, spending := charge l.spending call }
      (.start k) (s.filed call args result) := by
    have hledger := p.ledger
    refine p.withLedger ?_ rfl rfl rfl rfl
    simp only [State.ledger, State.filed, Ledger.mk.injEq, Ledger.answered] at hledger ⊢
    simp [hledger]
  have answered : Answered call l
      (.dispatch call :: u ++ .event (.toolResult call.id result) :: shown)
      { l.answered call args result with plan := plan, spending := charge l.spending call } :=
    .answered args result hu hshown
  refine ensures_complete (R := Stands env
      (t ++ (.dispatch call :: u ++ [.event (.toolResult call.id result)]))
      { l.answered call args result with plan := plan, spending := charge l.spending call }
      (.start k)) ?_ (fun hc s₁ p₁ => ?_) (fun hc s₁ p₁ => ?_)
  · refine (emit_spec filed rfl (minted_of_no_block rfl)).mono (fun _ s₁ p₁ => by simpa using p₁)
      (fun halt s₁ h => ?_)
    exact ⟨_, _, _, by simpa using h.2,
      Or.inr ⟨h.1, .unshown args result hu hshown List.nil_prefix⟩⟩
  · rw [hc] at hchange
    subst hchange
    exact ⟨_, _, k, answered, p₁⟩
  · rw [hc] at hchange
    subst hchange
    refine (showPlan_spec p₁).mono (fun _ s₂ p₂ => ?_) (fun halt s₂ h => ?_)
    · exact ⟨_, _, k, answered, by simpa using p₂⟩
    · have given : [.event (.toolResult call.id result)] <+:
          Entry.event (.toolResult call.id result) :: [.event (.planUpdate plan)] :=
        List.prefix_append _ _
      exact ⟨_, _, _, h.2, Or.inr ⟨h.1, .unshown args result hu hshown given⟩⟩

/-- A plan tool changes the plan or leaves it, and never halts the run. -/
theorem changePlan_spec {k : Nat} (p : Stands env t l (.start k) s) (tool : PlanTool)
    (args : Json) :
    Ensures (changePlan env tool args) s
      (fun r s' => ∃ plan shown k', Shows l.plan plan shown ∧
        (shown = if r.2.isSome then [.event (.planUpdate plan)] else []) ∧
        Stands env t { l with plan := plan } (.start k') s')
      (fun _ _ => False) := by
  obtain rfl := p.ledger
  refine ensures_changePlan (fun change plan happly => ?_) (fun e _ => ?_)
  · refine ⟨plan, _, s.assembly.minted + change.minted, .changed happly, rfl, ?_⟩
    have grown : Stands env t s.ledger (.start (s.assembly.minted + change.minted))
        { s with assembly := .start (s.assembly.minted + change.minted) } :=
      p.withAssembly (p.assembly ▸ Nat.le_add_right _ _) fun block h => by
        simp [Assembly.IsOpen, Assembly.start] at h
    refine Stands.withLedger grown rfl rfl ?_ rfl rfl
    simp [p.assembly, Assembly.start]
  · exact ⟨s.plan, [], k, .same _, rfl, p⟩

/-- A plan tool changes the plan and mints names for it, or it leaves both. -/
theorem changePlan_made (env : Env) (tool : PlanTool) (args : Json) (s : State) :
    Ensures (changePlan env tool args) s
      (fun r s' => (∃ change, r = (change.result, some change) ∧
          tool.apply args (fun i => IdKind.task.mint env.supply (s.assembly.minted + i)) s.plan =
            .ok (change, s'.plan) ∧
          s'.assembly.minted = s.assembly.minted + change.minted) ∨
        (∃ message, r.1 = failureResult message) ∧ s' = s)
      (fun _ _ => False) :=
  ensures_changePlan (fun change _ happly => Or.inl ⟨change, rfl, happly, rfl⟩)
    (fun _ _ => Or.inr ⟨⟨_, rfl⟩, rfl⟩)

theorem takesSlot_of_ok {raw : Json} (hargs : call.arguments = .ok raw)
    (htool : PlanTool.ofName? call.name = none) : takesSlot call = true := by
  simp [takesSlot, hargs, Except.isOk, Except.toBool, PlanTool.isName, htool]

theorem charge_of_left {sp : Spending} (h : takesSlot call = true)
    (hleft : sp.budget.tool.isSpent sp.toolCalls = false) :
    charge sp call = { sp with toolCalls := sp.toolCalls + 1 } := by
  simp [charge, h, hleft]

theorem charge_of_spent {sp : Spending} (hspent : sp.budget.tool.isSpent sp.toolCalls = true) :
    charge sp call = sp := by
  simp [charge, hspent]

/-- A call that takes a place in the budget is charged for it. -/
theorem admitTool_spec (p : Stands env t l a s) (h : takesSlot call = true) :
    Ensures admitTool s
      (fun _ s' => Stands env t { l with spending := charge l.spending call } a s')
      (fun _ _ => False) := by
  obtain rfl := p.ledger
  refine ensures_admitTool (fun hleft => ?_) (fun hspent => ?_)
  · have hcharged : charge s.ledger.spending call =
        { s.spending with toolCalls := s.spending.toolCalls + 1 } := charge_of_left h hleft
    rw [hcharged]
    exact p.withLedger rfl rfl rfl rfl rfl
  · have hcharged : charge s.ledger.spending call = s.spending := charge_of_spent hspent
    rw [hcharged]
    exact p

/-- The ways of a call. Its arguments may be no JSON; it may be one of a plan tool; or it is denied,
of an unknown tool, or worked off. -/
theorem ensures_dispatch {Q : Answer → State → Prop} {E : Halt → State → Prop}
    (malformed : ∀ e, call.arguments = .error e →
      Ensures (complete env call (.str call.rawArguments)
        (failureResult ("invalid JSON arguments: " ++ e.message)) none)
        (s.note (.dispatch call)) Q E)
    (planned : ∀ raw tool, call.arguments = .ok raw → PlanTool.ofName? call.name = some tool →
      Ensures (changePlan env tool (resolve s.records raw)) (s.note (.dispatch call))
        (fun r s₁ => Ensures (complete env call (resolve s.records raw) r.1 r.2) s₁ Q E) E)
    (admitted : ∀ raw, call.arguments = .ok raw → PlanTool.ofName? call.name = none →
      Ensures admitTool (s.note (.dispatch call))
        (fun denied s₁ => match denied, env.tools.get? call.name with
          | some denied, _ => Ensures (complete env call (resolve s.records raw)
              (failureResult denied.message) none) s₁ Q E
          | none, none => Ensures (complete env call (resolve s.records raw)
              (failureResult ("unknown tool: " ++ call.name)) none) s₁ Q E
          | none, some tool => Ensures (workOff env tool call (resolve s.records raw)) s₁
              (fun result s₂ =>
                Ensures (complete env call (resolve s.records raw) result none) s₂ Q E) E) E) :
    Ensures (dispatch env call) s Q E := by
  simp only [dispatch, ensures_bind, ensures_modify]
  cases hargs : call.arguments with
  | error e => exact malformed e hargs
  | ok raw =>
    simp only [ensures_bind, ensures_get]
    cases htool : PlanTool.ofName? call.name with
    | some tool =>
      simp only [ensures_bind]
      exact planned raw tool hargs htool
    | none =>
      simp only [ensures_bind]
      refine (admitted raw hargs htool).imp (fun denied s₁ h₁ => ?_)
      cases denied with
      | some denied => exact h₁
      | none =>
        cases hget : env.tools.get? call.name with
        | none =>
          rw [hget] at h₁
          exact h₁
        | some tool =>
          rw [hget] at h₁
          simp only [ensures_bind]
          exact h₁

theorem takesSlot_of_malformed {e : Json.SyntaxError} (hargs : call.arguments = .error e) :
    takesSlot call = false := by
  simp [takesSlot, hargs, Except.isOk, Except.toBool]

theorem takesSlot_of_planTool {tool : PlanTool} (htool : PlanTool.ofName? call.name = some tool) :
    takesSlot call = false := by
  simp [takesSlot, PlanTool.isName, htool]

theorem charge_of_free (hslot : takesSlot call = false) (sp : Spending) : charge sp call = sp := by
  simp [charge, hslot]

/-- Every call that is taken up is answered, unless it halts the run. -/
theorem dispatch_spec {k : Nat} (p : Stands env t l (.start k) s) (call : Call) :
    Ensures (dispatch env call) s (fun _ s' => StandsAnswered env call t l s')
      (StandsHalted env call t l) := by
  have p₀ : Stands env (t ++ [.dispatch call]) l (.start k) (s.note (.dispatch call)) :=
    p.note rfl rfl
  -- Denied, unknown or worked off, the call is completed without a change of the plan.
  have completes {s' : State} (p' : Serving env call (t ++ [.dispatch call])
      { l with spending := charge l.spending call } (.start k) s') (args result : Json) :
      Ensures (complete env call args result none) s'
        (fun _ s' => StandsAnswered env call t l s') (StandsHalted env call t l) :=
    complete_spec p' args result (.same l.plan) rfl
  refine ensures_dispatch (fun e hargs => ?_) (fun raw tool hargs htool => ?_)
    (fun raw hargs htool => ?_)
  · refine completes (Serving.start (a := .start k) ?_) _ _
    rw [charge_of_free (takesSlot_of_malformed hargs)]
    exact p₀
  · refine (changePlan_spec p₀ tool _).mono (fun r s₁ h => ?_) (fun _ _ h => h.elim)
    obtain ⟨plan, shown, k', hshown, hchange, p₁⟩ := h
    refine complete_spec (Serving.start (a := .start k') ?_) _ _ hshown hchange
    rw [charge_of_free (takesSlot_of_planTool htool)]
    exact p₁
  · refine (admitTool_spec p₀ (takesSlot_of_ok hargs htool)).mono (fun denied s₁ p₁ => ?_)
      (fun _ _ h => h.elim)
    cases denied with
    | some denied => exact completes (.start p₁) _ _
    | none =>
      cases env.tools.get? call.name with
      | none => exact completes (.start p₁) _ _
      | some tool =>
        refine (workOff_spec (.start p₁) tool _).mono (fun result s₂ p₂ => completes p₂ _ _)
          (fun halt s₂ h => ?_)
        obtain ⟨hf, u, hu, p₂⟩ := h
        exact ⟨.dispatch call :: u, _, _, by simpa using p₂, Or.inl ⟨hf, .unanswered hu⟩⟩

end Run

end AgentRun
