import AgentRun.Proofs.ClientWaits

/-!
# The errors that end a run

Some errors are there for what cannot happen: that a model call comes to nothing after its last
attempt, that a task cannot be given up, that a wait is refused or abandoned. The last attempt of a
model call gives an answer or halts (`attempts_spec`), a task is looked up again right before it is
given up (`giveUp_course`), and a run waits for one call at a time, under an id of its own. So only
the model, a client that is late and a client that is gone bring an error about (`BroughtAbout`),
whatever the clients and the other runs do meanwhile.
-/

namespace AgentRun.Run

/-- The errors that something outside the run brings about. Nobody is gone who is still there. -/
inductive BroughtAbout (gone : Prop) : EngineError → Prop
  /-- The model fails. -/
  | gateway (e : GatewayError) : BroughtAbout gone (.gateway e)
  /-- It gives nothing in time. -/
  | modelTimeout (e : CallTimeout) : BroughtAbout gone (.modelTimeout e)
  /-- It stops in the middle of an answer. -/
  | modelStalled (timeoutMs : Nat) : BroughtAbout gone (.modelStalled timeoutMs)
  /-- The client does not answer in time. -/
  | frontendTimeout (tool : String) (timeoutMs : Nat) :
      BroughtAbout gone (.frontendTimeout tool timeoutMs)
  | consumerGone (h : gone) : BroughtAbout gone .consumerGone

/-- What the waits of a run find at a moment: a registration succeeds that is made while no wait for
that call is open, and a wait that is held does not lose its other end. -/
structure Unrefused (env : Env) (m : Moment) : Prop where
  registered : ∀ callId, ¬ (waitOf env.runId m.state.journal).IsOpen callId → ∃ h r,
    m.state.world.rendezvous.register ⟨env.runId, callId⟩ = (.ok h, r)
  linked : ∀ h ∈ m.state.world.rendezvous.held, ∀ e,
    m.state.world.rendezvous.look? h ≠ some (.error e)

variable {env : Env} {mode : AgentMode} {m : Moment} {p q : Point} {e : EngineError}
  {t : List Entry} {l : Ledger}

theorem Moment.Holds.unrefused (h : m.Holds env) : Unrefused env m where
  registered := by
    intro callId hclosed
    have hfree : m.state.world.rendezvous.isPending ⟨env.runId, callId⟩ = false := by
      rw [Bool.eq_false_iff, Ne, h.pending_iff]
      exact hclosed
    obtain ⟨r, hreg, -⟩ := Rendezvous.register_free hfree
    exact ⟨_, r, hreg⟩
  linked := by
    intro handle hheld e hlook
    rw [h.sound.look_of_held hheld] at hlook
    cases hreceived : m.state.world.rendezvous.received? handle with
    | none => simp [hreceived] at hlook
    | some payload => simp [hreceived] at hlook

/-- Where acts break off, something outside the run brought it about, or a wait was refused. -/
theorem Break.broughtAbout {gone : Prop} (h : Break env mode q (.failed e) t l)
    (hgone : e = .consumerGone → gone) (hrefused : ∀ e', e ≠ .rendezvous e') :
    BroughtAbout gone e := by
  cases h with
  | model _ _ _ hfault =>
    cases hfault with
    | gateway e => exact .gateway e
    | timedOut e => exact .modelTimeout e
    | stalled timeoutMs => exact .modelStalled timeoutMs
  | call _ hfault =>
    cases hfault with
    | refused e => exact absurd rfl (hrefused e)
    | timedOut tool timeoutMs => exact .frontendTimeout tool timeoutMs
  | gone _ => exact .consumerGone (hgone rfl)

section Engine

variable {engine : Engine} {turn : UserTurn} {world : World} {fuel : Nat}

/-- A client that stages find gone is gone where they come out. -/
theorem gone_of_consumerGone
    (h : (engine.run turn world fuel).stages = .error (.failed .consumerGone)) :
    (afterStages engine turn world fuel).channel.connected = false := by
  have start : Reached (engine.start turn world).1 (Runner.ofAgent turn.agent engine.config).mode
      ⟨[], [], startLedger engine turn world⟩ [] (engine.start turn world).2 :=
    ⟨_, _, _, .refl, start_stands⟩
  obtain ⟨-, -, -, -, -, hgone⟩ := came_stages start
    (show _ = ((engine.run turn world fuel).stages, afterStages engine turn world fuel) from rfl)
  exact hgone h

/-- Where no wait of the run is registered before it starts, its stages end with no other error than
those that the model, a client that is late or a client that is gone brings about; and at no moment,
whatever clients and other runs do, is a wait of the run refused or abandoned. -/
theorem errors_are_brought_about (engine : Engine) (turn : UserTurn) (world : World) (fuel : Nat)
    (hsound : world.rendezvous.Sound)
    (hnew : ∀ h ∈ world.rendezvous.held, h.key.runId ≠ (engine.start turn world).1.runId) :
    let m₀ : Moment := ⟨startState engine turn world (world.minted + 1), world.now⟩
    (∀ e, (engine.run turn world fuel).stages = .error (.failed e) →
      BroughtAbout ((afterStages engine turn world fuel).channel.connected = false) e) ∧
    (∃ since, Reaches (engine.start turn world).1 m₀ ⟨(engine.run turn world fuel).final, since⟩) ∧
    ∀ m, Reaches (engine.start turn world).1 m₀ m → Unrefused (engine.start turn world).1 m := by
  intro m₀
  have h₀ : m₀.Holds (engine.start turn world).1 := start_holds hsound hnew
  obtain ⟨hleft, hhalts⟩ := run_left (stood_keeps h₀) ⟨world.now, .refl, rfl⟩ fuel
  refine ⟨fun e he => ?_, ?_, fun m hr => (h₀.reaches hr).unrefused⟩
  · obtain ⟨t, l, a, hran⟩ := ran engine turn world fuel
    have hcame := hran.came
    rw [he] at hcame
    cases hcame with
    | broke _ hbreak =>
      refine hbreak.broughtAbout (fun hgone => ?_) fun e' hrefused => ?_
      · rw [hgone] at he
        exact gone_of_consumerGone he
      · rw [hrefused] at he
        exact hhalts _ he rfl
  · rcases hleft.kept with ⟨since, hr, -⟩ | ⟨-, since, hr, -⟩
    · exact ⟨since, hr⟩
    · exact ⟨since, hr⟩

end Engine

/-- An engine whose model asks the client twice under one id and then fails. -/
def insisting : Engine :=
  let question : Reply := Script.ofChunks (Script.calls [("c1", "confirm", .empty)]) .done
  { rehearsal [question, question, Script.refused (.unavailable "down")] with
    tools := confirming.tools }

/-- A turn of several decisions with a client that says yes to every call. -/
def agreeable : UserTurn :=
  { firstTurn .react with client := CommandLine.submitter (.bool true) }

/-- Both waits for the same call are registered and answered, and the error of the model is what
ends the run. -/
theorem repeated_question_is_answered :
    (insisting.run agreeable (.new 1) 0).final.acks = [(2, .ok), (5, .ok)] ∧
      (insisting.run agreeable (.new 1) 0).stages =
        .error (.failed (.gateway (.unavailable "down"))) ∧
      BroughtAbout ((afterStages insisting agreeable (.new 1) 0).channel.connected = false)
        (.gateway (.unavailable "down")) := by
  have hstages : (insisting.run agreeable (.new 1) 0).stages =
      .error (.failed (.gateway (.unavailable "down"))) := by decide +kernel
  obtain ⟨herrors, -, -⟩ := errors_are_brought_about insisting agreeable (.new 1) 0
    Rendezvous.Sound.empty (fun h hh => absurd hh List.not_mem_nil)
  exact ⟨by decide +kernel, hstages, herrors _ hstages⟩

end AgentRun.Run
