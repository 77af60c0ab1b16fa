import AgentRun.Proofs.Assembly
import AgentRun.Proofs.Waiting

/-!
# Where a run stands

`Stands env t l a s` describes a state as far as the run itself makes it: what happened (the trail),
the ledger and the answer that is being put together. Everything else in the state belongs to the
client and the clock, and of it only `State.Ready` is known: the channel is open and has room, a
client that is there has been given every event, and the blocks of all texts are minted ones.

What a part of a run does is then said as a step from one trail, ledger and answer to the next.
-/

namespace AgentRun

/-- The channel with an event passed on. -/
def Channel.pass (c : Channel) (e : Event) : Channel :=
  { c with finished := e.isFinish, queue := c.queue ++ [e] }

/-- The channel with an event noted, for which there may be no room or nobody to take it. -/
def Channel.mark (c : Channel) (e : Event) : Channel := { c with finished := e.isFinish }

theorem Channel.pass_sent (c : Channel) (e : Event) : (c.pass e).sent = c.sent ++ [e] := by
  simp [sent, pass]

/-- What becomes of an event that is put into an open channel. -/
theorem Channel.put_of_opened {c : Channel} (h : c.finished = false) (e : Event) :
    c.put e =
      if !c.connected then (.gone, c.mark e)
      else if c.queue.length < c.capacity then (.done, c.pass e)
      else (.full, c.mark e) := by
  simp [put, h, enqueue, pass, mark]

namespace Run

/-- A state in which a run can go on. -/
structure State.Ready (env : Env) (s : State) : Prop where
  /-- No `finish` has been passed. -/
  opened : s.channel.finished = false
  unfinished : ∀ e ∈ s.events, e.isFinish = false
  /-- The channel has room for an event once the client took what is there. -/
  room : 0 < s.channel.capacity
  /-- No event is lost to a client that is there. -/
  sent : s.channel.connected = true → s.channel.sent = s.events
  /-- A client that keeps reading is there. -/
  attended : env.client.KeepsReading → s.Attended
  /-- The texts of the run are in minted blocks, and so are those that may follow. -/
  texts : ∀ e ∈ s.events, ∀ block, e.block? = some block →
    MintedBelow env.supply s.assembly.minted block
  blocks : s.assembly.BlocksMinted env.supply

/-- The run stands at a trail, with a ledger and an answer. -/
structure Stands (env : Env) (t : List Entry) (l : Ledger) (a : Assembly) (s : State) : Prop where
  trail : s.trail = t
  ledger : s.ledger = l
  assembly : s.assembly = a
  ready : s.Ready env

/-- The consumer of the events is gone, and the run halts for it. -/
def Gone (h : Halt) (s : State) : Prop :=
  h = .failed .consumerGone ∧ s.channel.connected = false

variable {env : Env} {t : List Entry} {l : Ledger} {a : Assembly} {s s' : State}

theorem State.events_of_trail (h : s'.trail = s.trail) : s'.events = s.events := by
  rw [← eventsOf_trail, ← eventsOf_trail, h]

theorem State.Ready.calm (h : s.Ready env) (c : Calm env s s') : s'.Ready env where
  opened := c.finished.trans h.opened
  unfinished := by rw [State.events_of_trail c.trail]; exact h.unfinished
  room := by rw [c.capacity]; exact h.room
  sent := fun hc => by
    obtain ⟨hc₀, hsent⟩ := c.sent hc
    rw [hsent, h.sent hc₀, State.events_of_trail c.trail]
  attended := fun hr => c.attended hr (h.attended hr)
  texts := by rw [State.events_of_trail c.trail, c.assembly]; exact h.texts
  blocks := by rw [c.assembly]; exact h.blocks

namespace Stands

theorem calm (p : Stands env t l a s) (c : Calm env s s') : Stands env t l a s' :=
  ⟨c.trail.trans p.trail, c.ledger.trans p.ledger, c.assembly.trans p.assembly, p.ready.calm c⟩

/-- An entry that is no event and not the client's. -/
theorem note (p : Stands env t l a s) {e : Entry} (he : e.isSubmission = false)
    (hn : e.event? = none) : Stands env (t ++ [e]) l a (s.note e) := by
  have htrail : (s.note e).trail = s.trail ++ [e] := by simp [State.trail, State.note, he]
  have hevents : (s.note e).events = s.events := by
    rw [← State.eventsOf_trail, htrail, eventsOf_append, State.eventsOf_trail]
    simp [eventsOf, hn]
  refine ⟨by rw [htrail, p.trail], p.ledger, p.assembly, ?_⟩
  obtain ⟨h₁, h₂, h₃, h₄, h₅, h₆, h₇⟩ := p.ready
  exact ⟨h₁, hevents ▸ h₂, h₃, fun hc => (h₄ hc).trans hevents.symm, h₅, hevents ▸ h₆, h₇⟩

/-- The parts of the world matter only to the waiting. -/
theorem withWorld (p : Stands env t l a s) (w : World) :
    Stands env t l a { s with world := w } := by
  obtain ⟨h₁, h₂, h₃, h₄, h₅, h₆, h₇⟩ := p.ready
  exact ⟨p.trail, p.ledger, p.assembly, h₁, h₂, h₃, h₄, h₅, h₆, h₇⟩

/-- An answer that grew without an event. -/
theorem withAssembly (p : Stands env t l a s) {a' : Assembly} (hm : a.minted ≤ a'.minted)
    (hb : a'.BlocksMinted env.supply) : Stands env t l a' { s with assembly := a' } := by
  obtain ⟨h₁, h₂, h₃, h₄, h₅, h₆, -⟩ := p.ready
  refine ⟨p.trail, p.ledger, rfl, h₁, h₂, h₃, h₄, h₅, fun e he block h => ?_, hb⟩
  exact (h₆ e he block h).mono (p.assembly ▸ hm)

/-- A change of the ledger alone. -/
theorem withLedger (p : Stands env t l a s) {l' : Ledger} (hledger : s'.ledger = l')
    (hjournal : s'.journal = s.journal) (hassembly : s'.assembly = s.assembly)
    (hchannel : s'.channel = s.channel) (hagenda : s'.agenda = s.agenda) :
    Stands env t l' a s' := by
  have htrail : s'.trail = s.trail := by rw [State.trail, hjournal]; rfl
  have hevents := State.events_of_trail htrail
  obtain ⟨ht, -, ha, h⟩ := p
  refine ⟨htrail.trans ht, hledger, hassembly.trans ha, ?_, ?_, ?_, ?_, fun hr => ?_, ?_, ?_⟩
  · rw [hchannel]; exact h.opened
  · rw [hevents]; exact h.unfinished
  · rw [hchannel]; exact h.room
  · rw [hchannel, hevents]; exact h.sent
  · unfold State.Attended
    rw [hchannel, hagenda]
    exact h.attended hr
  · rw [hevents, hassembly]; exact h.texts
  · rw [hassembly]; exact h.blocks

theorem addMessage (p : Stands env t l a s) (m : Message) :
    Stands env t { l with history := l.history ++ [m] } a
      { s with history := s.history ++ [m] } := by
  obtain rfl := p.ledger
  exact p.withLedger rfl rfl rfl rfl rfl

end Stands

/-! ## Passing an event on -/

theorem perform_queue_length (act : ClientAct) (s : State) :
    (perform act s).channel.queue.length ≤ s.channel.queue.length := by
  cases act with
  | submit ticket key payload => exact Nat.le_refl _
  | leave => exact Nat.zero_le _

theorem undertakeAll_queue_length (intents : List Intent) (s : State) :
    (undertakeAll intents s).channel.queue.length ≤ s.channel.queue.length := by
  unfold undertakeAll
  induction intents generalizing s with
  | nil => exact Nat.le_refl _
  | cons i rest ih =>
    refine Nat.le_trans (ih _) ?_
    show (undertake i s).channel.queue.length ≤ _
    unfold undertake
    split
    · exact perform_queue_length i.act s
    · exact Nat.le_refl _

/-- A client that takes as many events as there are leaves none. -/
theorem takeEvents_queue {n : Nat} (h : s.channel.queue.length ≤ n) :
    (takeEvents env n s).channel.queue = [] := by
  induction n generalizing s with
  | zero => exact List.length_eq_zero_iff.mp (Nat.le_zero.mp h)
  | succ n ih =>
    unfold takeEvents Channel.take
    cases hq : s.channel.queue with
    | nil => exact hq
    | cons e rest =>
      refine ih (Nat.le_trans (undertakeAll_queue_length _ _) ?_)
      rw [hq, List.length_cons] at h
      exact Nat.le_of_succ_le_succ h

theorem clientTurn_queue : (clientTurn env s).channel.queue = [] :=
  takeEvents_queue (Nat.le_refl _)

/-- Whether a `finish` was passed matters only to the channel. -/
theorem Calm.of_marked {s₁ s₂ : State} {e : Event} (c : Calm env s s₁)
    (c' : Calm env { s₁ with channel := s₁.channel.mark e } s₂) :
    Calm env s { s₂ with channel := { s₂.channel with finished := s.channel.finished } } where
  ledger := c'.ledger.trans c.ledger
  assembly := c'.assembly.trans c.assembly
  trail := c'.trail.trans c.trail
  acted := by
    have marked : ActedOn s₁ { s₁ with channel := s₁.channel.mark e } := .of_same rfl rfl
    exact (c.acted.trans marked).trans (c'.acted.trans (.of_same rfl rfl))
  heard := fun f hf => c.heard f (c'.heard f hf)
  finished := rfl
  capacity := c'.capacity.trans c.capacity
  sent := fun h => by
    obtain ⟨h₁, hsent₁⟩ := c'.sent h
    obtain ⟨h₀, hsent₀⟩ := c.sent h₁
    exact ⟨h₀, hsent₁.trans hsent₀⟩
  attended := fun hr h => c'.attended hr (c.attended hr h)
  later := Nat.le_trans c.later c'.later
  work := c'.work.trans c.work

/-- An event that is given to an open channel is passed on after some waiting, unless the client is
gone by then. -/
theorem emit_run (hopen : s.channel.finished = false) (hroom : 0 < s.channel.capacity)
    (e : Event) : Ensures (emit env e) s
    (fun _ s' => ∃ s₁, Calm env s s₁ ∧
      s' = State.note (.event e) { s₁ with channel := s₁.channel.pass e })
    (fun halt s' => Gone halt s' ∧ ∃ s₁, Calm env s s₁ ∧
      s' = { s₁ with channel := s₁.channel.mark e }) := by
  have c : Calm env s (takeStep env s) := Calm.refl.after_takeStep
  unfold emit
  simp only [ensures_bind, ensures_get, hopen, Bool.false_eq_true, if_false]
  generalize takeStep env s = s₁ at c
  have hopened : s₁.channel.finished = false := c.finished.trans hopen
  rw [Channel.put_of_opened hopened]
  cases hconn : s₁.channel.connected with
  | false =>
    simp only [Bool.not_false, if_true, ensures_bind, ensures_set, ensures_fail]
    exact ⟨⟨rfl, hconn⟩, s₁, c, rfl⟩
  | true =>
    simp only [Bool.not_true, Bool.false_eq_true, if_false]
    by_cases hfits : s₁.channel.queue.length < s₁.channel.capacity
    · simp only [hfits, if_true, ensures_set]
      exact ⟨s₁, c, by simp [noteEvent, hopened]⟩
    · simp only [hfits, if_false]
      -- There is no room, so the client takes all that is there, or leaves.
      have c' : Calm env { s₁ with channel := s₁.channel.mark e }
          (clientTurn env (keepDue { s₁ with channel := s₁.channel.mark e })) :=
        Calm.refl.after_keepDue.after_clientTurn
      have hqueue : (clientTurn env (keepDue { s₁ with
          channel := s₁.channel.mark e })).channel.queue = [] := clientTurn_queue
      generalize clientTurn env (keepDue { s₁ with channel := s₁.channel.mark e }) = s₂
        at c' hqueue
      have hfinished : s₂.channel.finished = e.isFinish := c'.finished
      have hcapacity : 0 < s₂.channel.capacity := by
        rw [show s₂.channel.capacity = s₁.channel.capacity from c'.capacity, c.capacity]
        exact hroom
      have again : Calm env s { s₂ with
          channel := { s₂.channel with finished := s.channel.finished }, stretch := 1 } :=
        (c.of_marked c').congr rfl rfl rfl rfl rfl rfl (Nat.le_refl _) rfl
      cases hconn₂ : s₂.channel.connected with
      | false =>
        simp only [Channel.enqueue, hconn₂, Bool.not_false, if_true, ensures_bind, ensures_set,
          ensures_fail]
        exact ⟨⟨rfl, hconn₂⟩, _, again, by simp [Channel.mark, ← hfinished]⟩
      | true =>
        simp only [Channel.enqueue, hconn₂, hqueue, Bool.not_true, Bool.false_eq_true, if_false,
          List.length_nil, hcapacity, if_true, ensures_set]
        exact ⟨_, again, by simp [noteEvent, Channel.pass, hqueue, hconn₂, ← hfinished]⟩

section Passed

variable {e : Event} {s₁ : State}

theorem State.passed_trail : (State.note (.event e)
    { s₁ with channel := s₁.channel.pass e }).trail = s₁.trail ++ [.event e] := by
  simp [State.trail, State.note, Entry.isSubmission]

theorem State.passed_events : (State.note (.event e)
    { s₁ with channel := s₁.channel.pass e }).events = s₁.events ++ [e] := by
  rw [← eventsOf_trail, State.passed_trail, eventsOf_append, eventsOf_trail]
  rfl

/-- An event that does not end the run is passed on. -/
theorem Stands.passed (p : Stands env t l a s₁) (he : e.isFinish = false)
    (hb : ∀ block, e.block? = some block → MintedBelow env.supply a.minted block) :
    Stands env (t ++ [.event e]) l a (State.note (.event e)
      { s₁ with channel := s₁.channel.pass e }) := by
  obtain ⟨rfl, rfl, rfl, h⟩ := p
  refine ⟨State.passed_trail, rfl, rfl, he, ?_, h.room, fun hc => ?_, h.attended, ?_, h.blocks⟩
  · rw [State.passed_events]
    simpa [he, or_imp, forall_and] using h.unfinished
  · rw [State.passed_events, ← h.sent hc]
    exact Channel.pass_sent _ _
  · rw [State.passed_events]
    simp only [List.mem_append, List.mem_singleton]
    rintro f (hf | rfl)
    · exact h.texts f hf
    · exact hb

/-- An event that does not end the run is given up with the client gone. -/
theorem Stands.marked (p : Stands env t l a s₁) (he : e.isFinish = false) :
    Stands env t l a { s₁ with channel := s₁.channel.mark e } := by
  obtain ⟨rfl, rfl, rfl, h⟩ := p
  exact ⟨rfl, rfl, rfl, he, h.unfinished, h.room, h.sent, h.attended, h.texts, h.blocks⟩

end Passed

/-- An event that is no text is in no block at all. -/
theorem minted_of_no_block {supply : Supply} {n : Nat} {e : Event} (h : e.block? = none) :
    ∀ block, e.block? = some block → MintedBelow supply n block :=
  fun _ hb => absurd (h.symm.trans hb) (Option.some_ne_none _).symm

theorem emit_spec (p : Stands env t l a s) {e : Event} (he : e.isFinish = false)
    (hb : ∀ block, e.block? = some block → MintedBelow env.supply a.minted block) :
    Ensures (emit env e) s (fun _ s' => Stands env (t ++ [.event e]) l a s')
      (fun halt s' => Gone halt s' ∧ Stands env t l a s') := by
  refine (emit_run p.ready.opened p.ready.room e).mono (fun _ s' h => ?_) (fun halt s' h => ?_)
  · obtain ⟨s₁, c, rfl⟩ := h
    exact (p.calm c).passed he hb
  · obtain ⟨hg, s₁, c, rfl⟩ := h
    exact ⟨hg, (p.calm c).marked he⟩

/-- Events go out one after the other: what holds with the first of them is handed on by each. -/
theorem ensures_emitAll {I : List Event → State → Prop} {E : Halt → State → Prop}
    {es : List Event} (start : I [] s)
    (emitted : ∀ done e s₁, done ++ [e] <+: es → I done s₁ →
      Ensures (emit env e) s₁ (fun _ s₂ => I (done ++ [e]) s₂) E) :
    Ensures (emitAll env es) s (fun _ s' => I es s') E := by
  have rest : ∀ es' done s₁, done ++ es' = es → I done s₁ →
      Ensures (emitAll env es') s₁ (fun _ s' => I es s') E := by
    intro es'
    induction es' with
    | nil =>
      intro done s₁ hall h₁
      obtain rfl : done = es := by simpa using hall
      exact h₁
    | cons e es' ih =>
      intro done s₁ hall h₁
      have hall' : done ++ [e] ++ es' = es := by simpa using hall
      simp only [emitAll, ensures_bind]
      exact (emitted done e s₁ ⟨es', hall'⟩ h₁).imp fun _ s₂ h₂ => ih _ s₂ hall' h₂
  exact rest es [] s rfl start

theorem emitAll_spec (p : Stands env t l a s) {es : List Event}
    (he : ∀ e ∈ es, e.isFinish = false)
    (hb : ∀ e ∈ es, ∀ block, e.block? = some block → MintedBelow env.supply a.minted block) :
    Ensures (emitAll env es) s (fun _ s' => Stands env (t ++ es.map .event) l a s')
      (fun halt s' => Gone halt s' ∧
        ∃ done, done <+: es ∧ Stands env (t ++ done.map .event) l a s') := by
  refine ensures_emitAll (I := fun done s' => Stands env (t ++ done.map .event) l a s')
    (by simpa using p) (fun done e s₁ hdone p₁ => ?_)
  have hmem : e ∈ es := hdone.subset (List.mem_append_right _ (List.mem_singleton_self e))
  refine (emit_spec p₁ (he e hmem) (hb e hmem)).mono (fun _ s₂ p₂ => by simpa using p₂)
    (fun halt s₂ h => ⟨h.1, done, (List.prefix_append _ _).trans hdone, h.2⟩)

/-! ## What the engine says itself -/

/-- The open blocks are closed. -/
theorem Stands.closed (p : Stands env t l a s) :
    Stands env t l a.closeBlocks { s with assembly := s.assembly.closeBlocks } := by
  obtain rfl := p.assembly
  exact p.withAssembly (Nat.le_refl _) fun block h => by
    simp [Assembly.IsOpen, Assembly.closeBlocks] at h

theorem showPlan_spec (p : Stands env t l a s) :
    Ensures (showPlan env) s (fun _ s' => Stands env (t ++ [.event (.planUpdate l.plan)]) l a s')
      (fun halt s' => Gone halt s' ∧ Stands env t l a s') := by
  have hplan : s.plan = l.plan := by rw [← p.ledger]; rfl
  simp only [showPlan, ensures_bind, ensures_get, hplan]
  exact emit_spec p rfl (minted_of_no_block rfl)

theorem stageMarker_spec (p : Stands env t l a s) (label : String) :
    Ensures (stageMarker env label) s
      (fun _ s' => Stands env (t ++ [.event (.stage label)]) l a.closeBlocks s')
      (fun halt s' => Gone halt s' ∧ Stands env t l a.closeBlocks s') := by
  simp only [stageMarker, closeBlocks, ensures_bind, ensures_modify]
  exact emit_spec p.closed rfl (minted_of_no_block rfl)

/-- What the engine says stands in a block of its own. -/
theorem say_spec (p : Stands env t l a s) (text : String) :
    Ensures (say env text) s
      (fun _ s' => Stands env
        (t ++ [.event (.content (IdKind.block.mint env.supply a.minted) text)])
        { l with history := l.history ++ [.assistant (.ofText text)] }
        { a.closeBlocks with minted := a.minted + 1 } s')
      (fun halt s' => Gone halt s' ∧
        Stands env t l { a.closeBlocks with minted := a.minted + 1 } s') := by
  obtain rfl := p.assembly
  simp only [say, closeBlocks, mint, addMessage, ensures_bind, ensures_modify, ensures_get,
    ensures_set, ensures_pure]
  have p' : Stands env t l { s.assembly.closeBlocks with minted := s.assembly.minted + 1 }
      { s with assembly := { s.assembly.closeBlocks with minted := s.assembly.minted + 1 } } :=
    p.withAssembly (Nat.le_succ _) fun block h => by
      simp [Assembly.IsOpen, Assembly.closeBlocks] at h
  refine (emit_spec p' rfl ?_).mono (fun _ s' p'' => ?_) (fun halt s' h => h)
  · rintro block ⟨⟩
    exact ⟨s.assembly.minted, Nat.lt_succ_self _, rfl⟩
  · exact p''.addMessage (.assistant (.ofText text))

/-- A state that the end of the events left, on a trail and with a ledger. What is sent is still all
that a client that is there was to be given. -/
structure Ended (env : Env) (t : List Entry) (l : Ledger) (minted : Nat) (s : State) : Prop where
  trail : s.trail = t
  ledger : s.ledger = l
  minted : s.assembly.minted = minted
  sent : s.channel.connected = true → s.channel.sent = s.events
  attended : env.client.KeepsReading → s.Attended

theorem Stands.ended (p : Stands env t l a s) : Ended env t l a.minted s :=
  ⟨p.trail, p.ledger, congrArg _ p.assembly, p.ready.sent, p.ready.attended⟩

theorem Ended.calm {minted : Nat} (p : Ended env t l minted s) (c : Calm env s s') :
    Ended env t l minted s' where
  trail := c.trail.trans p.trail
  ledger := c.ledger.trans p.ledger
  minted := (congrArg Assembly.minted c.assembly).trans p.minted
  sent := fun hc => by
    obtain ⟨hc₀, hsent⟩ := c.sent hc
    rw [hsent, p.sent hc₀, State.events_of_trail c.trail]
  attended := fun hr => c.attended hr (p.attended hr)

/-- The end of the events of a run: the last event goes to a client that has been given all
others. -/
theorem finish_spec (p : Stands env t l a s) (reason : FinishReason) :
    Ensures (finish env reason) s
      (fun _ s' => Ended env (t ++ [.event (.finish reason)]) l a.minted s')
      (fun halt s' => Gone halt s' ∧ Ended env t l a.minted s') := by
  simp only [finish, closeBlocks, ensures_bind, ensures_modify]
  refine (emit_run p.closed.ready.opened p.closed.ready.room (.finish reason)).mono
    (fun _ s' h => ?_) (fun halt s' h => ?_)
  · obtain ⟨s₁, c, rfl⟩ := h
    have p₁ := (p.closed.calm c).ended
    refine ⟨by rw [State.passed_trail, p₁.trail], p₁.ledger, p₁.minted, fun hc => ?_, p₁.attended⟩
    rw [State.passed_events, ← p₁.sent hc]
    exact Channel.pass_sent _ _
  · obtain ⟨hg, s₁, c, rfl⟩ := h
    have p₁ := (p.closed.calm c).ended
    exact ⟨hg, p₁.trail, p₁.ledger, p₁.minted, p₁.sent, p₁.attended⟩

end Run

end AgentRun
