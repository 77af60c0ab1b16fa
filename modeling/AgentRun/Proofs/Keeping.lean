import AgentRun.Proofs.ModelCall
import AgentRun.Proofs.Results

/-!
# What a run keeps

A run changes its state in few ways: the client acts and time goes by (`Calm`), entries are written
into the journal, and parts of the state change that are neither the journal nor the waits nor the
count of tool calls (`State.Beside`). A property of states that all this leaves alone, and that
every call that is dispatched leaves alone too (`Keeps`), holds wherever a run comes out.

`Frame` and `Noting` are the first half of this, for any part of a run; `Keeps` is the whole, for
the stages. A call that finds the client gone may leave less of the property, as nothing comes after
it but what the client still does.
-/

namespace AgentRun.Run

variable {env : Env} {K S P J : State → Prop} {T : Halt → Prop} {plain : Entry → Prop}
  {s s' : State}

/-- The journal, the waits, the count of tool calls and the time are as they were, and so is whether
the client is there. -/
structure State.Beside (s s' : State) : Prop where
  journal : s'.journal = s.journal
  rendezvous : s'.world.rendezvous = s.world.rendezvous
  budget : s'.spending.budget = s.spending.budget
  toolCalls : s'.spending.toolCalls = s.spending.toolCalls
  now : s'.now = s.now
  connected : s'.channel.connected = s.channel.connected

/-- Events can go to the consumer, who was sent no others than those of the journal. -/
structure State.Steady (s : State) : Prop where
  opened : s.channel.finished = false
  room : 0 < s.channel.capacity
  heard : ∀ e ∈ s.channel.sent, e ∈ s.events

namespace State.Steady

theorem calm (h : s.Steady) (c : Calm env s s') : s'.Steady where
  opened := c.finished.trans h.opened
  room := by rw [c.capacity]; exact h.room
  heard := fun e he => by
    rw [State.events_of_trail c.trail]
    exact h.heard e (c.heard e he)

theorem congr (h : s.Steady) (hj : s'.journal = s.journal) (hc : s'.channel = s.channel) :
    s'.Steady := by
  have hevents : s'.events = s.events := by rw [State.events, State.events, hj]
  refine ⟨?_, ?_, ?_⟩
  · rw [hc]
    exact h.opened
  · rw [hc]
    exact h.room
  · rw [hc, hevents]
    exact h.heard

theorem mem_events_note {e : Event} {f : Entry} (he : e ∈ s.events) : e ∈ (s.note f).events := by
  rw [State.events_eq_eventsOf] at he ⊢
  exact mem_eventsOf.mpr (List.mem_append_left _ (mem_eventsOf.mp he))

theorem note (h : s.Steady) (e : Entry) : (s.note e).Steady :=
  ⟨h.opened, h.room, fun f hf => mem_events_note (h.heard f hf)⟩

theorem passed_heard {e : Event} (h : ∀ f ∈ s.channel.sent, f ∈ s.events) :
    ∀ f ∈ (s.channel.pass e).sent,
      f ∈ (State.note (.event e) { s with channel := s.channel.pass e }).events := by
  intro f hf
  rw [Channel.pass_sent] at hf
  rw [State.passed_events]
  rcases List.mem_append.mp hf with hf | hf
  · exact List.mem_append_left _ (h f hf)
  · exact List.mem_append_right _ hf

end State.Steady

/-- A property that is left alone by what the client does and by what goes on beside it. -/
structure Frame (env : Env) (K : State → Prop) : Prop where
  calm : ∀ {s s'}, K s → Calm env s s' → K s'
  beside : ∀ {s s'}, K s → s.Beside s' → K s'

/-- A property that entries of a sort leave alone as well. -/
structure Noting (env : Env) (K : State → Prop) (plain : Entry → Prop) : Prop
    extends Frame env K where
  note : ∀ {s e}, K s → plain e → K (s.note e)

/-- A steady state with a property. -/
def Kept (K : State → Prop) (s : State) : Prop := K s ∧ s.Steady

namespace Frame

variable {L : State → Prop} {e : Event}

theorem kept_calm (f : Frame env K) (h : Kept K s) (c : Calm env s s') : Kept K s' :=
  ⟨f.calm h.1 c, h.2.calm c⟩

theorem kept_beside (f : Frame env K) (h : Kept K s) (hb : s.Beside s')
    (hc : s'.channel = s.channel) : Kept K s' :=
  ⟨f.beside h.1 hb, h.2.congr hb.journal hc⟩

/-- An event goes out, or does not as the client is gone. Its entry may bring about another
property. -/
theorem emit (f : Frame env K) (he : ∀ {s}, K s → L (s.note (.event e))) (h : Kept K s) :
    Ensures (emit env e) s
      (fun _ s' => L s' ∧ (e.isFinish = false → s'.Steady) ∧ ∀ x ∈ s'.channel.sent, x ∈ s'.events)
      (fun halt s' => Gone halt s' ∧ K s' ∧ (e.isFinish = false → s'.Steady) ∧
        ∀ x ∈ s'.channel.sent, x ∈ s'.events) := by
  refine (emit_run h.2.opened h.2.room e).mono (fun _ s' hs => ?_) (fun halt s' hs => ?_)
  · obtain ⟨s₁, c, rfl⟩ := hs
    obtain ⟨hk, hs⟩ := f.kept_calm h c
    have hpassed : K { s₁ with channel := s₁.channel.pass e } :=
      f.beside hk ⟨rfl, rfl, rfl, rfl, rfl, rfl⟩
    have hheard := State.Steady.passed_heard (e := e) hs.heard
    exact ⟨he hpassed, fun hfin => ⟨hfin, hs.room, hheard⟩, hheard⟩
  · obtain ⟨hgone, s₁, c, rfl⟩ := hs
    obtain ⟨hk, hs⟩ := f.kept_calm h c
    exact ⟨hgone, f.beside hk ⟨rfl, rfl, rfl, rfl, rfl, rfl⟩,
      fun hfin => ⟨hfin, hs.room, hs.heard⟩, hs.heard⟩

theorem emit_kept (f : Frame env K) (he : ∀ {s}, K s → L (s.note (.event e)))
    (hfin : e.isFinish = false) (h : Kept K s) :
    Ensures (Run.emit env e) s (fun _ s' => Kept L s')
      (fun halt s' => Gone halt s' ∧ Kept K s') :=
  (f.emit he h).mono (fun _ _ hs => ⟨hs.1, hs.2.1 hfin⟩)
    (fun _ _ hs => ⟨hs.1, hs.2.1, hs.2.2.1 hfin⟩)

theorem waitFor_kept (f : Frame env K) (takes deadline : Option Nat) (h : Kept K s) :
    Ensures (waitFor env takes deadline) s (fun _ s' => Kept K s')
      (fun halt s' => halt = .stuck ∧ Kept K s') :=
  (waitFor_spec Calm.refl takes deadline).mono (fun _ _ c => f.kept_calm h c)
    (fun _ _ hs => ⟨hs.1, f.kept_calm h hs.2⟩)

/-! ## Backend tools -/

section Backend

variable {i : Invocation}

theorem invoke_kept (f : Frame env K) (deadline : Option Nat)
    (h : Kept K (s.note (.invocation i))) :
    Ensures (invoke env i deadline) s (fun _ s' => Kept K s')
      (fun halt s' => halt = .stuck ∧ Kept K s') := by
  have invoked : Kept K (s.invoked env i) :=
    f.kept_beside h ⟨rfl, rfl, rfl, rfl, rfl, rfl⟩ rfl
  exact ensures_invoke (fun _ c => f.kept_calm invoked c) (fun _ c _ => f.kept_calm invoked c)
    (fun _ c _ _ => ⟨rfl, f.kept_calm invoked c⟩)

/-- An attempt invokes the tool, which may bring about another property, or comes to nothing or to
an answer of its own. -/
theorem attemptTool_kept (f : Frame env K) (f' : Frame env L) (hback : ∀ {s}, L s → K s)
    (hi : ∀ {s}, K s → L (s.note (.invocation i))) (limit : Option Nat) (h : Kept K s) :
    Ensures (attemptTool env i limit) s
      (fun r s' => Kept K s' ∧
        ∀ v, r = some v → v = failureResult "tool worker pool closed" ∨ Kept L s')
      (fun halt s' => halt = .stuck ∧ Kept K s') := by
  have back {s : State} (h : Kept L s) : Kept K s := ⟨hback h.1, h.2⟩
  refine ensures_attemptTool (fun s₁ c => ⟨f.kept_calm h c, fun v hv => ?_⟩)
    (fun _ c _ => ⟨f.kept_calm h c, nofun⟩) (fun _ c _ _ => ⟨rfl, f.kept_calm h c⟩) (fun s₁ c => ?_)
  · exact Or.inl (Option.some.inj hv).symm
  · have h₁ : Kept K s₁ := f.kept_calm h c
    exact (f'.invoke_kept _ ⟨hi h₁.1, h₁.2.note _⟩).mono
      (fun r s₂ h₂ => ⟨back h₂, fun _ _ => Or.inr h₂⟩) (fun halt s₂ h₂ => ⟨h₂.1, back h₂.2⟩)

/-- The result of a backend tool is that of an invocation, or says that there is none. -/
theorem runTool_kept (f : Frame env K) (f' : Frame env L) (hback : ∀ {s}, L s → K s)
    {tool : Tool} {call : Call} (args : Json)
    (hi : ∀ {s}, K s → L (s.note (.invocation
      ⟨tool.definition.name, args, ⟨env.runId, env.agent.id, call.id⟩⟩))) (h : Kept K s) :
    Ensures (runTool env tool call args) s
      (fun result s' => Kept K s' ∧ (Kept L s' ∨ result = failureResult "tool worker pool closed" ∨
        ∃ scope : Scope, result = failureResult ("tool " ++ scope.timeoutError.message)))
      (fun halt s' => halt = .stuck ∧ Kept K s') := by
  refine ensures_runTool h (fun s₁ h₁ => ?_) (fun _ h₁ => ⟨h₁, Or.inr (Or.inr ⟨_, rfl⟩)⟩)
  refine (f.attemptTool_kept f' hback hi _ h₁).imp (fun result s₂ h₂ => ?_)
  cases result with
  | some v => exact ⟨h₂.1, (h₂.2 v rfl).elim (fun hv => Or.inr (Or.inl hv)) Or.inl⟩
  | none => exact h₂.1

end Backend

end Frame

theorem Noting.kept_note (f : Noting env K plain) (h : Kept K s) {e : Entry} (he : plain e) :
    Kept K (s.note e) :=
  ⟨f.note h.1 he, h.2.note e⟩

/-! ## The stages -/

theorem Event.heard_of_piece {e : Event} (h : e.isPiece = true) :
    (Entry.event e).isHeard = true := by
  cases e with
  | toolResult => cases h
  | _ => rfl

/-- Whether only a call can bring a halt about. -/
def Halt.isOfCall : Halt → Bool
  | .failed (.frontendTimeout _ _) => true
  | .failed (.rendezvous _) => true
  | _ => false

/-- A state in which a run came to a halt: the property still holds, or the client is gone and as
much holds as the call left of it. -/
structure Broke (P J : State → Prop) (T : Halt → Prop) (h : Halt) (s : State) : Prop where
  steady : s.Steady
  kept : P s ∨ Gone h s ∧ J s
  ofCall : h.isOfCall = true → T h

/-- What is left at the end of a run: the property, or as much as is true without a client. -/
structure Left (P J : State → Prop) (s : State) : Prop where
  kept : P s ∨ s.channel.connected = false ∧ J s
  heard : ∀ e ∈ s.channel.sent, e ∈ s.events

/-- A property that the stages of a run leave alone, `K` between their parts and `S` while an answer
is put together. What holds wherever they halt is `P`. -/
structure Keeps (env : Env) (K S P J : State → Prop) (T : Halt → Prop) : Prop where
  between : Noting env K (fun e => e.isSaid = true)
  during : Noting env S (fun e => e.isHeard = true)
  halted : Noting env P (fun e => e.isSaid = true)
  asks : ∀ {s} time request, K s → S (s.note (.modelCall time request))
  answers : ∀ {s} request turn, S s → K (s.note (.answer request turn))
  stops : ∀ {s}, K s → P s
  breaks : ∀ {s}, S s → P s
  dispatch : ∀ {s} call, Kept K s →
    Ensures (Run.dispatch env call) s (fun _ s' => Kept K s') (Broke P J T)
  /-- Nothing is left to happen to a run whose client is gone but what the client does. -/
  gone : ∀ {s s'}, J s → s.channel.connected = false → Calm env s s' → J s'

/-- A property that is the same throughout. -/
theorem Keeps.uniform (n : Noting env K (fun e => e.isPlain = true))
    (hdispatch : ∀ {s} call, Kept K s →
      Ensures (Run.dispatch env call) s (fun _ s' => Kept K s') (Broke K J T))
    (hgone : ∀ {s s'}, J s → s.channel.connected = false → Calm env s s' → J s') :
    Keeps env K K K J T where
  between := ⟨n.toFrame, fun h he => n.note h (Entry.isPlain_of_said he)⟩
  during := ⟨n.toFrame, fun h he => n.note h (Entry.isPlain_of_heard he)⟩
  halted := ⟨n.toFrame, fun h he => n.note h (Entry.isPlain_of_said he)⟩
  asks := fun _ _ h => n.note h rfl
  answers := fun _ _ h => n.note h rfl
  stops := id
  breaks := id
  dispatch := hdispatch
  gone := hgone

theorem Broke.of_kept {h : Halt} (hs : Kept P s) (hh : h.isOfCall = false) : Broke P J T h s :=
  ⟨hs.2, Or.inl hs.1, fun hof => absurd hof (by simp [hh])⟩

theorem Broke.of_gone {h : Halt} (hg : Gone h s) (hs : Kept P s) : Broke P J T h s :=
  .of_kept hs (by rw [hg.1]; rfl)

/-! ### What the engine says -/

namespace Noting

section Said

variable (n : Noting env K (fun e => e.isSaid = true))

include n

theorem show_kept {e : Event} (he : (Entry.event e).isSaid = true) (hfin : e.isFinish = false)
    (h : Kept K s) :
    Ensures (emit env e) s (fun _ s' => Kept K s') (fun halt s' => Gone halt s' ∧ Kept K s') :=
  n.emit_kept (fun hs => n.note hs he) hfin h

theorem stageMarker_kept (label : String) (h : Kept K s) :
    Ensures (stageMarker env label) s (fun _ s' => Kept K s')
      (fun halt s' => Gone halt s' ∧ Kept K s') := by
  simp only [stageMarker, closeBlocks, ensures_bind, ensures_modify]
  exact n.show_kept rfl rfl (n.kept_beside h ⟨rfl, rfl, rfl, rfl, rfl, rfl⟩ rfl)

theorem say_kept (text : String) (h : Kept K s) :
    Ensures (say env text) s (fun _ s' => Kept K s')
      (fun halt s' => Gone halt s' ∧ Kept K s') := by
  simp only [say, closeBlocks, mint, addMessage, ensures_bind, ensures_modify, ensures_get,
    ensures_set, ensures_pure]
  have hminted : Kept K { s with assembly :=
      { s.assembly.closeBlocks with minted := s.assembly.minted + 1 } } :=
    n.kept_beside h ⟨rfl, rfl, rfl, rfl, rfl, rfl⟩ rfl
  refine (n.show_kept rfl rfl hminted).imp (fun _ s₁ h₁ => ?_)
  exact n.kept_beside h₁ ⟨rfl, rfl, rfl, rfl, rfl, rfl⟩ rfl

theorem showPlan_kept {plan : Plan} (h : Kept K s) :
    Ensures (showPlan env) { s with plan := plan } (fun _ s' => Kept K s')
      (fun halt s' => Gone halt s' ∧ Kept K s') := by
  simp only [showPlan, ensures_bind, ensures_get]
  exact n.show_kept rfl rfl (n.kept_beside h ⟨rfl, rfl, rfl, rfl, rfl, rfl⟩ rfl)

theorem finish_left (reason : FinishReason) (h : Kept K s) :
    Ensures (finish env reason) s (fun _ s' => Left K J s') (fun _ s' => Left K J s') := by
  simp only [finish, closeBlocks, ensures_bind, ensures_modify]
  have hclosed : Kept K { s with assembly := s.assembly.closeBlocks } :=
    n.kept_beside h ⟨rfl, rfl, rfl, rfl, rfl, rfl⟩ rfl
  exact (n.emit (fun hs => n.note hs rfl) hclosed).mono (fun _ _ hs => ⟨Or.inl hs.1, hs.2.2⟩)
    (fun _ _ hs => ⟨Or.inl hs.2.1, hs.2.2.2⟩)

end Said

end Noting

namespace Keeps

/-! ### Model calls -/

section Model

variable (k : Keeps env K S P J T)

include k

theorem stopped {h : Halt} (hs : Kept K s) (hh : h.isOfCall = false) : Broke P J T h s :=
  .of_kept ⟨k.stops hs.1, hs.2⟩ hh

theorem broken {h : Halt} (hs : Kept S s) (hh : h.isOfCall = false) : Broke P J T h s :=
  .of_kept ⟨k.breaks hs.1, hs.2⟩ hh

theorem emitAll_kept {es : List Event} (hes : ∀ e ∈ es, e.isPiece = true) (h : Kept S s) :
    Ensures (emitAll env es) s (fun _ s' => Kept S s') (Broke P J T) := by
  refine ensures_emitAll (I := fun _ s' => Kept S s') h (fun done e s₁ hdone h₁ => ?_)
  have he : e.isPiece = true :=
    hes e (hdone.subset (List.mem_append_right _ (List.mem_singleton_self e)))
  exact (k.during.emit_kept (fun hs => k.during.note hs (Event.heard_of_piece he))
    (Event.not_finish_of_piece he) h₁).mono (fun _ _ h₂ => h₂)
    (fun halt s₂ h₂ => k.broken h₂.2 (by rw [h₂.1.1]; rfl))

theorem takeChunk_kept (c : Chunk) (h : Kept S s) :
    Ensures (takeChunk env c) s (fun _ s' => Kept S s') (Broke P J T) :=
  ensures_takeChunk (k.emitAll_kept (Assembly.push_grew c).pieces
    (k.during.kept_beside h ⟨rfl, rfl, rfl, rfl, rfl, rfl⟩ rfl))

theorem attemptAnswer_kept (request : ModelRequest) (limit : Option Nat) (h : Kept S s) :
    Ensures (attemptAnswer env request limit) s (fun _ s' => Kept S s') (Broke P J T) := by
  have hnoted : Kept S (s.note (.attempt s.now request)) := k.during.kept_note h rfl
  refine ensures_attemptAnswer (I := fun _ => Kept S)
    (k.during.kept_beside hnoted ⟨rfl, rfl, rfl, rfl, rfl, rfl⟩ rfl)
    (fun takes _ s₁ _ h₁ => ?_) (fun _ _ step _ _ s₁ h₁ => k.takeChunk_kept step.2 h₁)
    (fun _ _ h₁ => h₁) (fun _ _ h₁ => h₁) (fun _ _ _ h₁ => k.broken h₁ rfl)
    (fun _ _ _ h₁ => k.broken h₁ rfl)
  exact (k.during.waitFor_kept takes _ h₁).mono (fun _ _ h₂ => h₂)
    (fun halt s₂ h₂ => k.broken h₂.2 (by rw [h₂.1]; rfl))

theorem answerInTime_kept (request : ModelRequest) (scope : Scope) (n : Nat) (h : Kept S s) :
    Ensures (answerInTime env request scope n) s
      (fun answer s' => if answer.isSome then Kept K s' else Kept S s') (Broke P J T) := by
  have cleared {s₁ : State} (h₁ : Kept S s₁) :
      Kept S { s₁ with assembly := s₁.assembly.next } :=
    k.during.kept_beside h₁ ⟨rfl, rfl, rfl, rfl, rfl, rfl⟩ rfl
  refine ensures_answerInTime (k.attemptAnswer_kept request scope.timeout? h) (fun s₁ h₁ => ?_)
    (fun _ h₁ => k.broken h₁ rfl) (fun _ _ h₁ => cleared h₁) (fun _ _ h₁ => k.broken h₁ rfl)
  exact ⟨k.answers request _ (cleared h₁).1, (cleared h₁).2.note _⟩

theorem callModel_kept (ask : Ask) (h : Kept K s) :
    Ensures (callModel env ask) s (fun _ s' => Kept K s') (Broke P J T) := by
  refine callModel_by_attempts (I := Kept S) h (fun spending hadmitted => ?_)
    (fun _ _ n s₁ h₁ => k.answerInTime_kept _ _ n h₁) (fun h₁ => k.broken h₁ rfl)
  obtain ⟨-, rfl⟩ := admitModel_eq hadmitted
  have hcharged : Kept K { s with
      spending := { s.spending with modelCalls := s.spending.modelCalls + 1 } } :=
    k.between.kept_beside h ⟨rfl, rfl, rfl, rfl, rfl, rfl⟩ rfl
  exact ⟨k.asks s.now _ hcharged.1, hcharged.2.note _⟩

end Model

/-! ### The parts of the stages -/

section Parts

theorem lost (k : Keeps env K S P J T) {h : Halt} (hg : Gone h s ∧ Kept K s) :
    Broke P J T h s :=
  .of_gone hg.1 ⟨k.stops hg.2.1, hg.2.2⟩

theorem commit_kept (k : Keeps env K S P J T) (turn : Turn) (h : Kept K s) :
    Ensures (commit turn) s (fun _ s' => Kept K s') (Broke P J T) := by
  simp only [commit, ensures_ite, ensures_pure]
  exact ⟨fun _ => h, fun _ => k.between.kept_beside h ⟨rfl, rfl, rfl, rfl, rfl, rfl⟩ rfl⟩

theorem dispatchAll_kept (k : Keeps env K S P J T) (calls : List Call) (h : Kept K s) :
    Ensures (dispatchAll env calls) s (fun _ s' => Kept K s') (Broke P J T) := by
  induction calls generalizing s with
  | nil => exact h
  | cons call rest ih =>
    simp only [dispatchAll, ensures_bind]
    exact (k.dispatch call h).imp (fun _ s₁ h₁ => ih h₁)

theorem stageMarker_kept (k : Keeps env K S P J T) (label : String) (h : Kept K s) :
    Ensures (stageMarker env label) s (fun _ s' => Kept K s') (Broke P J T) :=
  (k.between.stageMarker_kept label h).mono (fun _ _ h₁ => h₁) (fun _ _ h₁ => k.lost h₁)

theorem say_kept (k : Keeps env K S P J T) (text : String) (h : Kept K s) :
    Ensures (say env text) s (fun _ s' => Kept K s') (Broke P J T) :=
  (k.between.say_kept text h).mono (fun _ _ h₁ => h₁) (fun _ _ h₁ => k.lost h₁)

theorem showPlan_kept (k : Keeps env K S P J T) {plan : Plan} (h : Kept K s) :
    Ensures (showPlan env) { s with plan := plan } (fun _ s' => Kept K s') (Broke P J T) :=
  (k.between.showPlan_kept h).mono (fun _ _ h₁ => h₁) (fun _ _ h₁ => k.lost h₁)

theorem summarize_kept (k : Keeps env K S P J T) (h : Kept K s) :
    Ensures (summarize env) s (fun _ s' => Kept K s') (Broke P J T) := by
  simp only [summarize, ensures_bind, ensures_get, ensures_ite]
  refine ⟨fun _ => k.say_kept _ h, fun _ => ?_⟩
  refine (k.callModel_kept _ h).imp (fun answer s₁ h₁ => ?_)
  cases answer with
  | some turn => exact k.commit_kept _ h₁
  | none => exact k.say_kept _ h₁

/-- What comes after a decision: the calls of its turn and the rest of the run, or nothing. -/
theorem decided_kept (k : Keeps env K S P J T) (turn : Turn) {rest : RunM Unit} (h : Kept K s)
    (hrest : ∀ s', Kept K s' → Ensures rest s' (fun _ s'' => Kept K s'') (Broke P J T)) :
    Ensures (do
      commit turn
      if turn.hasCalls then
        dispatchAll env turn.calls
        rest) s (fun _ s' => Kept K s') (Broke P J T) := by
  simp only [ensures_bind, ensures_ite, ensures_pure]
  refine (k.commit_kept turn h).imp (fun _ s₁ h₁ => ⟨fun _ => ?_, fun _ => h₁⟩)
  exact (k.dispatchAll_kept _ h₁).imp (fun _ s₂ h₂ => hrest s₂ h₂)

theorem oneshot_kept (k : Keeps env K S P J T) (h : Kept K s) :
    Ensures (oneshot env) s (fun _ s' => Kept K s') (Broke P J T) := by
  simp only [oneshot, ensures_bind]
  refine (k.callModel_kept _ h).imp (fun answer s₁ h₁ => ?_)
  cases answer with
  | none => exact k.summarize_kept h₁
  | some turn => exact k.decided_kept _ h₁ fun _ h₂ => k.summarize_kept h₂

theorem react_kept (k : Keeps env K S P J T) (left : Nat) (h : Kept K s) :
    Ensures (react env left) s (fun _ s' => Kept K s') (Broke P J T) := by
  induction left generalizing s with
  | zero => exact k.summarize_kept h
  | succ left ih =>
    simp only [react, isTimedOut, ensures_bind, ensures_get, ensures_pure, ensures_ite]
    refine ⟨fun _ => k.summarize_kept h, fun _ => ?_⟩
    refine (k.callModel_kept _ h).imp (fun answer s₁ h₁ => ?_)
    cases answer with
    | none => exact k.summarize_kept h₁
    | some turn => exact k.decided_kept _ h₁ fun _ h₂ => ih h₂

theorem makePlan_kept (k : Keeps env K S P J T) (h : Kept K s) :
    Ensures (makePlan env) s (fun _ s' => Kept K s') (Broke P J T) := by
  simp only [makePlan, ensures_bind]
  refine (k.callModel_kept _ h).imp (fun answer s₁ h₁ => ?_)
  cases answer with
  | none => exact h₁
  | some turn =>
    simp only [ensures_bind]
    exact (k.commit_kept turn h₁).imp (fun _ s₂ h₂ => k.dispatchAll_kept _ h₂)

theorem giveUp_kept (k : Keeps env K S P J T) (task : PlanTask) (h : Kept K s) :
    Ensures (giveUp env task) s (fun _ s' => Kept K s') (Broke P J T) := by
  simp only [giveUp, ensures_bind, ensures_get]
  cases s.plan.setStatus? task.taskId .failed with
  | ok plan => exact k.showPlan_kept h
  | error e => exact k.stopped h rfl

theorem workOn_kept (k : Keeps env K S P J T) (task : PlanTask) (left : Nat) (h : Kept K s) :
    Ensures (workOn env task left) s (fun _ s' => Kept K s') (Broke P J T) := by
  induction left generalizing s with
  | zero =>
    simp only [workOn, ensures_bind, ensures_get, ensures_ite, ensures_pure]
    exact ⟨fun _ => h, fun _ => k.giveUp_kept task h⟩
  | succ left ih =>
    simp only [workOn, isTimedOut, ensures_bind, ensures_get, ensures_pure, ensures_ite]
    refine ⟨fun _ => h, fun _ => ⟨fun _ => h, fun _ => ?_⟩⟩
    refine (k.callModel_kept _ h).imp (fun answer s₁ h₁ => ?_)
    cases answer with
    | none => exact h₁
    | some turn =>
      simp only [ensures_bind]
      refine (k.commit_kept turn h₁).imp (fun _ s₂ h₂ => ?_)
      exact (k.dispatchAll_kept _ h₂).imp (fun _ s₃ h₃ => ih h₃)

theorem cancelOpen_kept (k : Keeps env K S P J T) (h : Kept K s) :
    Ensures (cancelOpen env) s (fun _ s' => Kept K s') (Broke P J T) := by
  simp only [cancelOpen, ensures_bind, ensures_get, ensures_ite, ensures_pure, ensures_set]
  exact ⟨fun _ => k.showPlan_kept h, fun _ => h⟩

theorem execute_kept (k : Keeps env K S P J T) (rounds fuel : Nat) (h : Kept K s) :
    Ensures (execute env rounds fuel) s (fun _ s' => Kept K s') (Broke P J T) := by
  induction fuel generalizing s with
  | zero => exact k.stopped h rfl
  | succ fuel ih =>
    simp only [execute, isTimedOut, ensures_bind, ensures_get]
    cases s.plan.nextOpen? with
    | none => exact h
    | some task =>
      simp only [ensures_ite, ensures_bind, ensures_get, ensures_pure]
      refine ⟨fun _ => k.cancelOpen_kept h, fun _ => ?_⟩
      refine (k.workOn_kept task rounds h).imp (fun settled s₁ h₁ => ?_)
      exact ⟨fun _ => ih h₁, fun _ => k.cancelOpen_kept h₁⟩

theorem planExecute_kept (k : Keeps env K S P J T) (rounds fuel : Nat) (h : Kept K s) :
    Ensures (planExecute env rounds fuel) s (fun _ s' => Kept K s') (Broke P J T) := by
  have planned {s' : State} (h' : Kept K s') : Ensures (do
      stageMarker env "execute"
      execute env rounds fuel
      stageMarker env "summary"
      summarize env) s' (fun _ s' => Kept K s') (Broke P J T) := by
    simp only [ensures_bind]
    refine (k.stageMarker_kept "execute" h').imp (fun _ s₁ h₁ => ?_)
    refine (k.execute_kept rounds fuel h₁).imp (fun _ s₂ h₂ => ?_)
    exact (k.stageMarker_kept "summary" h₂).imp (fun _ s₃ h₃ => k.summarize_kept h₃)
  unfold planExecute
  rw [ensures_bind]
  refine (k.stageMarker_kept "plan" h).imp (fun _ s₁ h₁ => ?_)
  simp only [isTimedOut, ensures_bind, ensures_get, ensures_ite] at planned ⊢
  refine ⟨fun _ => ⟨fun _ => ?_, fun _ => planned h₁⟩, fun _ => planned h₁⟩
  exact (k.makePlan_kept h₁).imp (fun _ s₂ h₂ => planned h₂)

/-- The stages of a run in any mode leave the property alone. -/
theorem stages_kept (k : Keeps env K S P J T) (runner : Runner) (fuel : Nat) (h : Kept K s) :
    Ensures (runner.stages env fuel) s (fun _ s' => Kept K s') (Broke P J T) := by
  cases runner with
  | oneshot => exact k.oneshot_kept h
  | react maxSteps => exact k.react_kept maxSteps h
  | planExecute rounds => exact k.planExecute_kept rounds fuel h

end Parts

/-! ## The end -/

theorem left_calm (k : Keeps env K S P J T) (h : Left P J s) (c : Calm env s s') :
    Left P J s' where
  kept := by
    rcases h.kept with hk | ⟨hconn, hj⟩
    · exact Or.inl (k.halted.calm hk c)
    · exact Or.inr ⟨c.gone_stays hconn, k.gone hj hconn c⟩
  heard := fun e he => by
    rw [State.events_of_trail c.trail]
    exact h.heard e (c.heard e he)

theorem left_of_broke {h : Halt} (hs : Broke P J T h s) : Left P J s where
  kept := hs.kept.imp id fun hg => ⟨hg.1.2, hg.2⟩
  heard := hs.steady.heard

theorem closing_left (k : Keeps env K S P J T) {r : Except Halt Unit}
    (hok : ∀ u, r = .ok u → Kept K s) (hbroke : ∀ halt, r = .error halt → Broke P J T halt s) :
    Ensures (closing env r) s (fun _ s' => Left P J s') (fun _ s' => Left P J s') := by
  cases r with
  | ok u =>
    have hdone := hok u rfl
    exact k.halted.finish_left .stop ⟨k.stops hdone.1, hdone.2⟩
  | error halt =>
    have h := hbroke halt rfl
    rw [closing_error]
    cases happ : apology? halt with
    | none =>
      simp only [ensures_ite, ensures_throw, ensures_pure]
      exact ⟨fun _ => left_of_broke h, fun _ => left_of_broke h⟩
    | some words =>
      -- Whoever is apologised to is there, so the call left the whole property.
      have hp : P s := by
        rcases h.kept with hp | ⟨⟨rfl, -⟩, -⟩
        · exact hp
        · cases happ
      simp only [apologise, ensures_bind]
      exact (k.halted.say_kept words.1 ⟨hp, h.steady⟩).mono
        (fun _ s₁ h₁ => k.halted.finish_left words.2 h₁)
        (fun _ s₁ h₁ => ⟨Or.inl h₁.2.1, h₁.2.2.heard⟩)

/-- A run that starts with a property that its parts leave alone ends with what is left of it. -/
theorem drive_left (k : Keeps env K S P J T) (runner : Runner) (fuel : Nat) (h : Kept K s) :
    Left P J (drive env runner fuel s).final ∧
      ∀ halt, (drive env runner fuel s).stages = .error halt → halt.isOfCall = true → T halt := by
  rcases hrun : (runner.stages env fuel).run s with ⟨r, s₁⟩
  rcases hclose : (closing env r).run s₁ with ⟨closed, s₂⟩
  have hstages := k.stages_kept runner fuel h
  have hok : ∀ u, r = .ok u → Kept K s₁ := by
    rintro u rfl
    exact hstages.of_run hrun
  have hbroke : ∀ halt, r = .error halt → Broke P J T halt s₁ := by
    rintro halt rfl
    exact hstages.of_run hrun
  have hclosed : Left P J s₂ := by
    have hout := (k.closing_left hok hbroke).of_run hclose
    cases closed <;> exact hout
  have hfinal : (drive env runner fuel s).final = clientTurn env s₂ := by
    simp only [drive, hrun, hclose]
  refine ⟨?_, fun halt hhalt hof => ?_⟩
  · rw [hfinal]
    exact k.left_calm hclosed Calm.refl.after_clientTurn
  · have hr : r = .error halt := by
      rw [← hhalt]
      simp only [drive, hrun, hclose]
    exact (hbroke halt hr).ofCall hof

end Keeps

/-! ## Whole runs -/

section Engine

variable {engine : Engine} {turn : UserTurn} {world : World}

/-- Before a run does anything its client may act. -/
theorem start_calm : Calm (engine.start turn world).1
    (startState engine turn world (world.minted + 1)) (engine.start turn world).2 :=
  Calm.refl.after_undertakeAll fun hr => hr.stays _ _

theorem startState_steady (minted : Nat) : (startState engine turn world minted).Steady where
  opened := rfl
  room := Nat.lt_of_lt_of_le Nat.zero_lt_one (Nat.le_max_left _ _)
  heard := fun _ he => absurd he List.not_mem_nil

/-- What the stages of a run leave alone is true at its end if it was at its start. -/
theorem run_left (k : Keeps (engine.start turn world).1 K S P J T)
    (h : K (startState engine turn world (world.minted + 1))) (fuel : Nat) :
    Left P J (engine.run turn world fuel).final ∧
      ∀ halt, (engine.run turn world fuel).stages = .error halt → halt.isOfCall = true →
        T halt := by
  have hstart : Kept K (engine.start turn world).2 :=
    k.between.kept_calm ⟨h, startState_steady _⟩ start_calm
  exact k.drive_left (Runner.ofAgent turn.agent engine.config) fuel hstart

end Engine

end AgentRun.Run
