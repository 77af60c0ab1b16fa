import AgentRun.Proofs.Course
import AgentRun.Run.Engine
import AgentRun.Script.Behaviour
import AgentRun.Script.Reply

/-!
# A whole run

A run starts at a point with nothing owed and nothing on its trail. Its acts lead it through its
stages or to where they break off, and then its events are ended in a way that only depends on how
the stages came out (`endingOf`). `Ran` collects what is known of the outcome of a run.
-/

namespace AgentRun.Run

/-- What the user is told of a halt, and the reason that the run then ends with. The run of a client
that is gone and a run that never ends tell nobody anything. -/
def apology? : Halt → Option (String × FinishReason)
  | .failed .consumerGone => none
  | .failed (.frontendTimeout _ _) => some (frontendTimeoutMessage, .timeout)
  | .failed _ => some (genericFailureMessage, .stop)
  | .panicked _ => some (genericFailureMessage, .stop)
  | .stuck => none
  | .cut => none

/-- The events that end a run, with a block for an apology. -/
def endingOf (block : String) : Except Halt Unit → List Event
  | .ok () => [.finish .stop]
  | .error h =>
    match apology? h with
    | some (message, reason) => [.content block message, .finish reason]
    | none => []

/-- A run ends with nothing but an apology and a `finish`. -/
theorem mem_endingOf {block : String} {r : Except Halt Unit} {e : Event}
    (h : e ∈ endingOf block r) :
    (∃ message, e = .content block message) ∨ ∃ reason, e = .finish reason := by
  cases r with
  | ok _ => exact Or.inr ⟨_, List.mem_singleton.mp h⟩
  | error halt =>
    unfold endingOf at h
    cases happ : apology? halt with
    | none => simp [happ] at h
    | some words =>
      simp only [happ, List.mem_cons, List.not_mem_nil, or_false] at h
      exact h.imp (fun h => ⟨_, h⟩) (fun h => ⟨_, h⟩)

/-- Whether a part of a run came out as one that does not end. -/
def neverEnds : Except Halt Unit → Bool
  | .error .stuck => true
  | .error .cut => true
  | _ => false

variable {env : Env} {t : List Entry} {l : Ledger} {a : Assembly} {s s' : State}

/-- The ledger after the engine said something. -/
def Ledger.said (l : Ledger) (texts : List String) : Ledger :=
  { l with history := l.history ++ texts.map fun text => .assistant (.ofText text) }

@[simp] theorem Ledger.said_nil : l.said [] = l := by simp [Ledger.said]

/-- A state that the end of a run left. -/
inductive Closed (env : Env) (t : List Entry) (l : Ledger) (a : Assembly) (es : List Event)
    (s : State) : Prop
  /-- All of the last events went out, what they say in a block that is minted for it. -/
  | all (texts : List String) {minted : Nat}
      (h : Ended env (t ++ es.map .event) (l.said texts) minted s)
      (hm : ∀ block text, .content block text ∈ es → a.minted < minted)
  /-- The client is gone, and some of the last events did not go out. -/
  | part {done : List Event} (texts : List String) {minted : Nat} (hdone : done <+: es)
      (h : Ended env (t ++ done.map .event) (l.said texts) minted s)
      (hgone : s.channel.connected = false)

theorem Closed.calm {es : List Event} (h : Closed env t l a es s) (c : Calm env s s') :
    Closed env t l a es s' := by
  cases h with
  | all texts h hm => exact .all texts (h.calm c) hm
  | part texts hdone h hgone => exact .part texts hdone (h.calm c) (c.gone_stays hgone)

theorem Stands.closed_nil (p : Stands env t l a s) : Closed env t l a [] s :=
  .all [] (by simpa using p.ended) fun _ _ h => absurd h List.not_mem_nil

theorem apologise_spec (p : Stands env t l a s) (message : String) (reason : FinishReason) :
    Ensures (apologise env message reason) s
      (fun _ s' => Closed env t l a
        [.content (IdKind.block.mint env.supply a.minted) message, .finish reason] s')
      (fun halt s' => Gone halt s' ∧ Closed env t l a
        [.content (IdKind.block.mint env.supply a.minted) message, .finish reason] s') := by
  simp only [apologise, ensures_bind]
  refine (say_spec p message).mono (fun _ s₁ p₁ => ?_) (fun halt s₁ h => ?_)
  · refine (finish_spec p₁ reason).mono (fun _ s₂ h₂ => ?_) (fun halt s₂ h₂ => ⟨h₂.1, ?_⟩)
    · exact .all [message] (by simpa [Ledger.said] using h₂) fun _ _ _ => Nat.lt_succ_self _
    · have said : [Event.content (IdKind.block.mint env.supply a.minted) message] <+:
          [.content (IdKind.block.mint env.supply a.minted) message, .finish reason] :=
        ⟨[.finish reason], rfl⟩
      exact .part [message] said h₂.2 h₂.1.2
  · exact ⟨h.1, .part [] List.nil_prefix (by simpa using h.2.ended) h.1.2⟩

/-- A run that halts apologises, stops in silence or never ends. -/
theorem closing_error (halt : Halt) :
    closing env (.error halt) = match apology? halt with
      | some (message, reason) => apologise env message reason
      | none => if neverEnds (.error halt) then throw halt else pure () := by
  cases halt with
  | failed e => cases e <;> rfl
  | _ => rfl

theorem neverEnds_of_apology {halt : Halt} {words : String × FinishReason}
    (h : apology? halt = some words) : neverEnds (.error halt) = false := by
  cases halt with
  | stuck => cases h
  | cut => cases h
  | _ => rfl

/-- How the events of a run are ended. -/
theorem closing_spec (p : Stands env t l a s) (r : Except Halt Unit) :
    Ensures (closing env r) s
      (fun _ s' => neverEnds r = false ∧
        Closed env t l a (endingOf (IdKind.block.mint env.supply a.minted) r) s')
      (fun halt s' => neverEnds (.error halt) = neverEnds r ∧
        Closed env t l a (endingOf (IdKind.block.mint env.supply a.minted) r) s') := by
  cases r with
  | ok _ =>
    refine (finish_spec p .stop).mono (fun _ s' h => ?_) (fun halt s' h => ?_)
    · exact ⟨rfl, .all [] (by simpa [endingOf] using h) (by simp [endingOf])⟩
    · obtain ⟨⟨rfl, hgone⟩, h⟩ := h
      exact ⟨rfl, .part [] List.nil_prefix (by simpa using h) hgone⟩
  | error halt =>
    rw [closing_error, endingOf]
    cases happ : apology? halt with
    | none =>
      simp only [ensures_ite, ensures_throw, ensures_pure]
      exact ⟨fun _ => ⟨trivial, p.closed_nil⟩, fun h => ⟨Bool.eq_false_iff.mpr h, p.closed_nil⟩⟩
    | some words =>
      have ends := neverEnds_of_apology happ
      refine (apologise_spec p words.1 words.2).mono (fun _ s' h => ⟨ends, h⟩)
        (fun halt' s' h => ?_)
      obtain ⟨⟨rfl, -⟩, h⟩ := h
      exact ⟨ends.symm, h⟩

/-! ## From the start to the end -/

/-- The ledger that a run starts with. -/
def startLedger (engine : Engine) (turn : UserTurn) (world : World) : Ledger where
  history := turn.history ++ [.user turn.message]
  records := []
  plan := turn.plan.getD ⟨IdKind.plan.mint engine.supply (world.minted + 1), []⟩
  spending := .start turn.agent.runSpec.budget world.now

variable {engine : Engine} {turn : UserTurn} {world : World}

/-- Where a run starts. -/
theorem start_stands : Stands (engine.start turn world).1 [] (startLedger engine turn world)
    (.start (world.minted + 2)) (engine.start turn world).2 := by
  have fresh : Stands (engine.start turn world).1 [] (startLedger engine turn world)
      (.start (world.minted + 2)) (startState engine turn world (world.minted + 1)) := by
    refine ⟨rfl, rfl, rfl, rfl, ?_, ?_, fun _ => rfl, fun _ => ⟨rfl, ?_⟩, ?_, ?_⟩
    · exact fun _ h => absurd h List.not_mem_nil
    · exact Nat.lt_of_lt_of_le Nat.zero_lt_one (Nat.le_max_left _ _)
    · exact fun _ h => absurd h List.not_mem_nil
    · exact fun _ h => absurd h List.not_mem_nil
    · exact fun block h => by simp [Assembly.IsOpen, startState, Assembly.start] at h
  exact fresh.calm (Calm.refl.after_undertakeAll fun hr => hr.stays _ _)

/-- The state in which the stages of a run came out. -/
def afterStages (engine : Engine) (turn : UserTurn) (world : World) (fuel : Nat) : State :=
  (((Runner.ofAgent turn.agent engine.config).stages (engine.start turn world).1 fuel).run
    (engine.start turn world).2).2

/-- How acts led to where the stages of a run came out. -/
inductive Came (env : Env) (mode : AgentMode) (p : Point) :
    Except Halt Unit → List Entry → Ledger → Prop
  /-- They led through all stages. -/
  | through {t : List Entry} {l : Ledger} (hr : Relation.ReflTransGen (Act env mode) p ⟨[], t, l⟩)
      (hplan : mode = .planExecute → l.plan.hasOpen = false) : Came env mode p (.ok ()) t l
  /-- They broke off. -/
  | broke {q : Point} {h : Halt} {t : List Entry} {l : Ledger}
      (hr : Relation.ReflTransGen (Act env mode) p q) (hb : Break env mode q h t l) :
      Came env mode p (.error h) t l

/-- What is known of a run when its stages came out at a trail and with a ledger and an answer. -/
structure Ran (engine : Engine) (turn : UserTurn) (world : World) (fuel : Nat) (t : List Entry)
    (l : Ledger) (a : Assembly) : Prop where
  came : Came (engine.start turn world).1 turn.agent.mode
    ⟨[], [], startLedger engine turn world⟩ (engine.run turn world fuel).stages t l
  stands : Stands (engine.start turn world).1 t l a (afterStages engine turn world fuel)
  /-- A client that keeps reading is not found gone. -/
  read : turn.client.KeepsReading →
    (engine.run turn world fuel).stages ≠ .error (.failed .consumerGone)
  closed : Closed (engine.start turn world).1 t l a
    (endingOf (IdKind.block.mint engine.supply a.minted) (engine.run turn world fuel).stages)
    (engine.run turn world fuel).final
  ended : (engine.run turn world fuel).ended = !neverEnds (engine.run turn world fuel).stages

theorem mode_ofAgent (agent : Agent) (config : Config) :
    (Runner.ofAgent agent config).mode = agent.mode := by
  unfold Runner.ofAgent
  cases agent.mode <;> rfl

theorem came_stages {runner : Runner} {fuel : Nat} {p : Point} {r : Except Halt Unit}
    (hs : Reached env runner.mode p [] s) (hrun : (runner.stages env fuel).run s = (r, s')) :
    ∃ t l a, Came env runner.mode p r t l ∧ Stands env t l a s' ∧
      (r = .error (.failed .consumerGone) → s'.channel.connected = false) := by
  have h := (stages_course runner fuel hs).of_run hrun
  cases r with
  | ok _ =>
    obtain ⟨⟨t, l, k, hr, hs'⟩, hplan⟩ := h
    exact ⟨t, l, _, .through hr (hs'.plan_eq ▸ hplan), hs', fun h => by cases h⟩
  | error halt =>
    obtain ⟨q, t, l, a, hr, hb, hs', hgone⟩ := h
    exact ⟨t, l, a, .broke hr hb, hs', fun h => hgone (Except.error.inj h)⟩

theorem drive_spec {runner : Runner} {fuel : Nat} {r : Except Halt Unit}
    (hrun : (runner.stages env fuel).run s = (r, s')) (p : Stands env t l a s') :
    (drive env runner fuel s).stages = r ∧
      Closed env t l a (endingOf (IdKind.block.mint env.supply a.minted) r)
        (drive env runner fuel s).final ∧
      (drive env runner fuel s).ended = !neverEnds r := by
  rcases hclose : (closing env r).run s' with ⟨closed, s₂⟩
  have h := (closing_spec p r).of_run hclose
  have hend : (drive env runner fuel s).ended = !neverEnds closed := by
    simp only [drive, hrun, hclose]
    unfold neverEnds
    split <;> simp_all
  have hfinal : (drive env runner fuel s).final = clientTurn env s₂ := by
    simp only [drive, hrun, hclose]
  refine ⟨by simp only [drive, hrun, hclose], ?_, ?_⟩
  · rw [hfinal]
    cases closed with
    | ok _ => exact h.2.calm Calm.refl.after_clientTurn
    | error halt => exact h.2.calm Calm.refl.after_clientTurn
  · rw [hend]
    cases closed with
    | ok _ => rw [h.1]; rfl
    | error halt => rw [h.1]

/-- Whatever happens in a run, acts lead through its stages or to where they break off, and its
events are ended as its stages came out. -/
theorem ran (engine : Engine) (turn : UserTurn) (world : World) (fuel : Nat) :
    ∃ t l a, Ran engine turn world fuel t l a := by
  have start : Reached (engine.start turn world).1 (Runner.ofAgent turn.agent engine.config).mode
      ⟨[], [], startLedger engine turn world⟩ [] (engine.start turn world).2 :=
    ⟨_, _, _, .refl, start_stands⟩
  rcases hrun : ((Runner.ofAgent turn.agent engine.config).stages (engine.start turn world).1
    fuel).run (engine.start turn world).2 with ⟨r, s'⟩
  obtain ⟨t, l, a, hcame, hs, hgone⟩ := came_stages start hrun
  obtain ⟨hr, hclosed, hend⟩ := drive_spec hrun hs
  have hs' : afterStages engine turn world fuel = s' := congrArg Prod.snd hrun
  have hstages : (engine.run turn world fuel).stages = r := hr
  rw [mode_ofAgent] at hcame
  refine ⟨t, l, a, hstages ▸ hcame, hs' ▸ hs, fun hreads h => ?_, hstages ▸ hclosed,
    hstages ▸ hend⟩
  have hconn := (hs.ready.attended hreads).1
  exact absurd hconn (by simp [hgone (hstages.symm.trans h)])

/-! ## What a client that keeps reading gets -/

/-- The events that the consumer of a run took. -/
def Outcome.delivered (o : Outcome) : List Event := o.final.channel.taken

section Reading

variable {fuel : Nat}

theorem drive_queue (runner : Runner) : (drive env runner fuel s).final.channel.queue = [] := by
  rcases hrun : (runner.stages env fuel).run s with ⟨r, s₁⟩
  rcases hclose : (closing env r).run s₁ with ⟨closed, s₂⟩
  simp only [drive, hrun, hclose]
  exact clientTurn_queue

/-- A client that keeps reading is given all of the last events. -/
theorem Ran.final_ended (h : Ran engine turn world fuel t l a) (hreads : turn.client.KeepsReading) :
    ∃ texts minted, Ended (engine.start turn world).1
      (t ++ (endingOf (IdKind.block.mint engine.supply a.minted)
        (engine.run turn world fuel).stages).map .event)
      (l.said texts) minted (engine.run turn world fuel).final ∧
      ∀ block text, .content block text ∈ endingOf (IdKind.block.mint engine.supply a.minted)
        (engine.run turn world fuel).stages → a.minted < minted := by
  cases h.closed with
  | all texts hended hm => exact ⟨_, _, hended, hm⟩
  | part _ _ hended hgone => exact absurd (hended.attended hreads).1 (by simp [hgone])

/-- A client that keeps reading takes every event of the run. -/
theorem delivered_eq_events (hreads : turn.client.KeepsReading) :
    (engine.run turn world fuel).delivered = (engine.run turn world fuel).final.events := by
  obtain ⟨t, l, a, h⟩ := ran engine turn world fuel
  obtain ⟨texts, minted, hended, -⟩ := h.final_ended hreads
  rw [← hended.sent (hended.attended hreads).1, Channel.sent,
    show (engine.run turn world fuel).final.channel.queue = [] from drive_queue _, List.append_nil]
  rfl

/-- What is delivered are the events of the stages and then those that end the run. -/
theorem Ran.delivered_eq (h : Ran engine turn world fuel t l a)
    (hreads : turn.client.KeepsReading) :
    (engine.run turn world fuel).delivered = (afterStages engine turn world fuel).events ++
      endingOf (IdKind.block.mint engine.supply a.minted) (engine.run turn world fuel).stages := by
  obtain ⟨texts, minted, hended, -⟩ := h.final_ended hreads
  rw [delivered_eq_events hreads, ← State.eventsOf_trail, hended.trail, eventsOf_append,
    eventsOf_map_event, ← h.stands.trail, State.eventsOf_trail]

end Reading

/-! ## Rehearsals -/

/-- An engine with an echo as its only tool and a model that gives known answers. -/
def rehearsal (replies : List Reply) : Engine :=
  let echo : Script.ScriptedTool :=
    ⟨⟨⟨"echo", "Return the arguments unchanged", .empty⟩, .backend⟩, []⟩
  { supply := Uuid.timed 0
    model := Script.Queue.model ⟨replies, none⟩
    tools := Script.registry [echo]
    bodies := Script.bodies [echo]
    skills := .empty
    config := .default }

/-- A first turn of an agent in a mode, with a client that only reads. -/
def firstTurn (mode : AgentMode) : UserTurn where
  agent := { Agent.ofName "agent_1" "guide" "model_1" with mode := mode, tools := ["echo"] }
  history := []
  plan := none
  message := "Hello"
  client := .reader

/-- A turn of the same agent with limits. -/
def limited (limits : Budget) (turn : UserTurn) : UserTurn :=
  { turn with agent := { turn.agent with runSpec := { turn.agent.runSpec with budget := limits } } }

end AgentRun.Run
