import AgentRun.Proofs.Dispatch
import AgentRun.Proofs.ModelCall

/-!
# What is emitted on the way

`Gave es l s s'` says of two states that between them some events were emitted, that the ledger
became another and that the way to the consumer is as open as it was. It is the coarsest account of
a part of a run that emits, and it composes. Backend tools emit nothing; what they may do instead is
never to come back, and the state in which they do not is one that waits for ever.
-/

namespace AgentRun

/-- A worker that is never free stays so. -/
theorem Workers.freeFrom_later {w : Workers} {now later : Nat} (h : w.freeFrom now = none)
    (hle : now ≤ later) : w.freeFrom later = none := by
  unfold freeFrom at h ⊢
  split at h
  · cases h
  · rename_i hbusy
    -- All workers that are busy now are busy for ever, and these are all there are.
    have hnever : ∀ free ∈ w.busyAt now, free = none := by
      intro free hfree
      cases free with
      | none => rfl
      | some t =>
        rw [List.min?_eq_none_iff] at h
        exact absurd h (List.ne_nil_of_mem (List.mem_filterMap.mpr ⟨some t, hfree, rfl⟩))
    have hsame : w.busyAt later = w.busyAt now := by
      refine List.filter_congr fun free hmem => ?_
      cases free with
      | none => rfl
      | some t =>
        have hfree : ¬ now < t := fun hlt => by
          have := hnever (some t) (List.mem_filter.mpr ⟨hmem, by simpa using hlt⟩)
          cases this
        have hlater : ¬ later < t := fun hlt => hfree (Nat.lt_of_le_of_lt hle hlt)
        simp [hfree, hlater]
    rw [hsame, if_neg hbusy]
    exact h

namespace Run

/-- The events that were emitted on the way from one state to another. A consumer who is still there
was sent all of them. -/
structure Emitted (es : List Event) (s s' : State) : Prop where
  events : s'.events = s.events ++ es
  sent : s'.channel.connected = true →
    s.channel.connected = true ∧ s'.channel.sent = s.channel.sent ++ es

/-- The invocation of a tool for a call. -/
def invocationFor (env : Env) (call : Call) (tool : Tool) (args : Json) : Invocation :=
  ⟨tool.definition.name, args, ⟨env.runId, env.agent.id, call.id⟩⟩

/-- Nothing limits the time of backend tools, and no worker will ever be free or the body of the
tool never ends with this invocation. -/
def Hangs (env : Env) (i : Invocation) (s : State) : Prop :=
  s.spending.budget.tool.timeout? = none ∧ (s.world.workers.freeFrom s.now = none ∨
    (env.bodies.invoke s.world.invocations i).takes = none)

/-- A state waits for something that never comes, and nothing limits the wait. -/
inductive WaitsForEver (env : Env) (s : State) : Prop
  /-- The latest request is never answered to its end. -/
  | answer {past : List ModelRequest} {request : ModelRequest}
      (limit : s.spending.budget.model.timeout? = none)
      (asked : s.world.requests = past ++ [request])
      (never : (env.model.reply past request).NeverEnds) : WaitsForEver env s
  /-- No worker will ever be free. -/
  | worker (limit : s.spending.budget.tool.timeout? = none)
      (never : s.world.workers.freeFrom s.now = none) : WaitsForEver env s
  /-- The body of the latest invocation never ends. -/
  | result {past : List Invocation} {i : Invocation}
      (limit : s.spending.budget.tool.timeout? = none)
      (invoked : s.world.invocations = past ++ [i])
      (never : (env.bodies.invoke past i).takes = none) : WaitsForEver env s

variable {env : Env} {call : Call} {s s' s'' : State} {es es' : List Event} {l l' : Ledger}

/-! ## Steps between two states -/

/-- An open channel with room for an event. -/
structure State.Open (s : State) : Prop where
  opened : s.channel.finished = false
  room : 0 < s.channel.capacity

/-- Some events were emitted, the ledger became what it is, and the channel stays open. -/
structure Gave (es : List Event) (l : Ledger) (s s' : State) : Prop extends Emitted es s s' where
  ledger : s'.ledger = l
  stays : s.Open → s'.Open

theorem Emitted.trans (h : Emitted es s s') (h' : Emitted es' s' s'') :
    Emitted (es ++ es') s s'' where
  events := by rw [h'.events, h.events, List.append_assoc]
  sent := fun hc => by
    obtain ⟨hc', hsent'⟩ := h'.sent hc
    obtain ⟨hc₀, hsent⟩ := h.sent hc'
    exact ⟨hc₀, by rw [hsent', hsent, List.append_assoc]⟩

theorem Gave.trans (h : Gave es l s s') (h' : Gave es' l' s' s'') : Gave (es ++ es') l' s s'' :=
  ⟨h.toEmitted.trans h'.toEmitted, h'.ledger, h'.stays ∘ h.stays⟩

theorem Calm.gave (c : Calm env s s') : Gave [] s.ledger s s' where
  events := by rw [State.events_of_trail c.trail, List.append_nil]
  sent := fun hc => by
    obtain ⟨hc₀, hsent⟩ := c.sent hc
    exact ⟨hc₀, by rw [hsent, List.append_nil]⟩
  ledger := c.ledger
  stays := fun h => ⟨c.finished.trans h.opened, c.capacity ▸ h.room⟩

/-- What is neither an event nor the way to the consumer does not count. -/
theorem Gave.of_beside (hledger : s'.ledger = l) (hevents : s'.events = s.events)
    (hchannel : s'.channel = s.channel) : Gave [] l s s' where
  events := by rw [hevents, List.append_nil]
  sent := fun hc => by
    rw [hchannel] at hc ⊢
    exact ⟨hc, by rw [List.append_nil]⟩
  ledger := hledger
  stays := fun h => ⟨hchannel ▸ h.opened, hchannel ▸ h.room⟩

theorem events_note {e : Entry} (he : e.event? = none) : (s.note e).events = s.events := by
  have hevents : (s.note e).events = eventsOf (s.journal ++ [e]) := rfl
  rw [hevents, eventsOf_append]
  have hnone : eventsOf [e] = [] := by simp [eventsOf, he]
  rw [hnone, List.append_nil]
  rfl

theorem Gave.note {e : Entry} (h : Gave es l s s') (he : e.event? = none) :
    Gave es l s (s'.note e) := by
  have hnote : Gave [] l s' (s'.note e) := .of_beside h.ledger (events_note he) rfl
  simpa using h.trans hnote

theorem Gave.withRendezvous (h : Gave es l s s') (r : Rendezvous) :
    Gave es l s (s'.withRendezvous r) := by
  have hput : Gave [] l s' (s'.withRendezvous r) := .of_beside h.ledger rfl rfl
  simpa using h.trans hput

theorem Gave.refl : Gave [] s.ledger s s := .of_beside rfl rfl rfl

/-- What comes next and leaves the ledger alone. -/
theorem Gave.next (h : Gave es l s s') (h' : Gave es' s'.ledger s' s'') :
    Gave (es ++ es') l s s'' := by
  rw [h.ledger] at h'
  exact h.trans h'

theorem Gave.quiet (h : Gave es l s s') (h' : Gave [] s'.ledger s' s'') : Gave es l s s'' := by
  simpa using h.next h'

theorem Gave.calm (h : Gave es l s s') (c : Calm env s' s'') : Gave es l s s'' := h.quiet c.gave

theorem emit_gave (h : s.Open) {e : Event} (he : e.isFinish = false) :
    Ensures (emit env e) s (fun _ s' => Gave [e] s.ledger s s') (fun halt s' => Gone halt s') := by
  refine (emit_run h.opened h.room e).mono (fun _ s' hs' => ?_) (fun _ _ hs' => hs'.1)
  obtain ⟨s₁, c, rfl⟩ := hs'
  refine ⟨⟨?_, fun hc => ?_⟩, c.ledger, fun _ => ⟨he, c.capacity ▸ h.room⟩⟩
  · rw [State.passed_events, State.events_of_trail c.trail]
  · obtain ⟨hc₀, hsent⟩ := c.sent hc
    exact ⟨hc₀, (Channel.pass_sent _ _).trans (by rw [hsent])⟩

/-! ## Backend tools -/

/-- An invocation comes back, unless it is under no deadline and its body never ends. -/
theorem invoke_gave (i : Invocation) (deadline : Option Nat) :
    Ensures (invoke env i deadline) s
      (fun result s' => Gave [] s.ledger s s' ∧ (deadline = none → result.isSome = true))
      (fun halt s' => (halt = .stuck ∧ deadline = none ∧
          (env.bodies.invoke s.world.invocations i).takes = none) ∧
        Gave [] s.ledger s s' ∧ s'.world.invocations = s.world.invocations ++ [i]) := by
  have hnoted : Gave [] s.ledger s (s.note (.invocation i)) := Gave.refl.note rfl
  have hinvoked : Gave [] s.ledger s (s.invoked env i) := hnoted.quiet (.of_beside rfl rfl rfl)
  refine ensures_invoke (fun _ c => ⟨hinvoked.calm c, fun _ => rfl⟩)
    (fun _ c hlate => ⟨hinvoked.calm c, fun hnone => absurd hnone hlate⟩)
    (fun _ c hnone hnever => ⟨⟨rfl, hnone, hnever⟩, hinvoked.calm c, congrArg (·.2.2) c.work⟩)

/-- An attempt comes back, unless it is under no limit and waits for ever. -/
theorem attemptTool_gave (i : Invocation) (limit : Option Nat)
    (hlimit : limit = s.spending.budget.tool.timeout?) :
    Ensures (attemptTool env i limit) s
      (fun result s' => Gave [] s.ledger s s' ∧ (limit = none → result.isSome = true))
      (fun halt s' => halt = .stuck ∧ Hangs env i s ∧ WaitsForEver env s') := by
  -- The limits are those of the state before, wherever the run comes out.
  have unlimited {s' : State} (h : Gave [] s.ledger s s') (hnone : limit = none) :
      s.spending.budget.tool.timeout? = none ∧ s'.spending.budget.tool.timeout? = none := by
    have hspending : s'.spending = s.spending := congrArg Ledger.spending h.ledger
    rw [hspending, ← hlimit]
    exact ⟨hnone, hnone⟩
  refine ensures_attemptTool (fun _ c => ⟨c.gave, fun _ => rfl⟩)
    (fun _ c hlate => ⟨c.gave, fun hnone => absurd hnone hlate⟩) (fun s₁ c hnone hbusy => ?_)
    (fun s₁ c => ?_)
  · have hlimits := unlimited c.gave hnone
    have hworkers : s₁.world.workers = s.world.workers := congrArg (·.1) c.work
    refine ⟨rfl, ⟨hlimits.1, Or.inl hbusy⟩, .worker hlimits.2 ?_⟩
    rw [hworkers]
    exact Workers.freeFrom_later hbusy c.later
  · -- Nobody was invoked while the run waited for a worker.
    have hinvocations : s₁.world.invocations = s.world.invocations := congrArg (·.2.2) c.work
    refine (invoke_gave i _).mono (fun result s₂ h₂ => ?_) (fun halt s₂ h₂ => ?_)
    · exact ⟨c.gave.quiet h₂.1, fun hnone => h₂.2 (by rw [hnone]; rfl)⟩
    · obtain ⟨⟨hstuck, hnone, hnever⟩, hgave, hinvoked⟩ := h₂
      have hlimits := unlimited (c.gave.quiet hgave) (Option.map_eq_none_iff.mp hnone)
      rw [hinvocations] at hnever hinvoked
      exact ⟨hstuck, ⟨hlimits.1, Or.inr hnever⟩, .result hlimits.2 hinvoked hnever⟩

/-- A backend tool gives a result, unless it hangs and the run waits for it for ever. -/
theorem runTool_gave (tool : Tool) (args : Json) :
    Ensures (runTool env tool call args) s (fun _ s' => Gave [] s.ledger s s')
      (fun halt s' => halt = .stuck ∧ Hangs env (invocationFor env call tool args) s ∧
        WaitsForEver env s') := by
  -- Behind the first attempt there is another one only if there is a limit, and then none hangs.
  refine ensures_runTool
    (I := fun s' => Gave [] s.ledger s s' ∧ (s.spending.budget.tool.timeout? = none → s' = s))
    ⟨Gave.refl, fun _ => rfl⟩ (fun s₁ h₁ => ?_) (fun _ h₁ => h₁.1)
  have hspending : s₁.spending = s.spending := congrArg Ledger.spending h₁.1.ledger
  refine (attemptTool_gave (invocationFor env call tool args) _ (by rw [hspending])).mono
    (fun result s₂ h₂ => ?_) (fun halt s₂ h₂ => ?_)
  · cases result with
    | some value => exact h₁.1.quiet h₂.1
    | none => exact ⟨h₁.1.quiet h₂.1, fun hnone => absurd (h₂.2 hnone) (by decide)⟩
  · obtain ⟨hstuck, hhangs, hwaits⟩ := h₂
    have hnone := hhangs.1
    rw [hspending] at hnone
    obtain rfl := h₁.2 hnone
    exact ⟨hstuck, hhangs, hwaits⟩

end Run

end AgentRun
