import AgentRun.Proofs.Awaiting
import AgentRun.Proofs.Clock
import AgentRun.Proofs.Ending
import AgentRun.Proofs.WaitTrace

/-!
# How a run waits for its client

A run takes the steps of `Step` and no others: it registers a wait before the call goes out to the
client, makes no other entry until the wait is over, shows a payload that came first of all, and has
given up its handle wherever it comes out. So all that holds at every moment of such a course holds
of the waits of a run.
-/

namespace AgentRun.Run

variable {env : Env} {m₀ : Moment} {W : Wait → Prop} {call : Call} {s s' : State}

/-! ## Between two waits -/

/-- A run came to a state from a moment, and stands with its client in one of some ways. -/
def Stood (env : Env) (m₀ : Moment) (W : Wait → Prop) (s : State) : Prop :=
  ∃ since, Reaches env m₀ ⟨s, since⟩ ∧ W (waitOf env.runId s.journal)

/-- A run waits for nothing any more, though it may have a payload to show. -/
def Wait.IsOver (w : Wait) : Prop := w.isWaiting = false

/-- Where a run can halt while its client is there: no call for the client is in hand. -/
def Wait.IsPaused (env : Env) (w : Wait) : Prop :=
  w = .idle ∨ w = .answering ∨ ∃ call, w = .called call ∧ ¬ env.AsksClient call

theorem Wait.IsPaused.over {w : Wait} (h : w.IsPaused env) : w.IsOver := by
  rcases h with rfl | rfl | ⟨call, rfl, -⟩ <;> rfl

/-- What somebody submits is nothing to a run that does not wait. -/
theorem lasting_of_over {runId : String} (hW : ∀ w, W w → w.IsOver) : Wait.Lasting runId W := by
  intro w ticket key payload ack hw
  rw [Wait.after_submission (hW w hw)]
  exact hw

theorem lasting_shown {runId : String} {shown : Bool} :
    Wait.Lasting runId (·.isShown = shown) := by
  intro w ticket key payload ack hw
  cases w with
  | waiting callId shown' answer =>
    cases answer <;> exact hw
  | _ => exact hw

theorem reaches_beside {since : Nat} (hr : Reaches env m₀ ⟨s, since⟩) (hb : s.Beside s') :
    Reaches env m₀ ⟨s', since⟩ :=
  hr.tail (.goesOn ⟨s, since⟩ hb.journal hb.rendezvous (Nat.le_of_eq hb.now.symm)
    fun hconn => hb.connected.symm.trans hconn)

namespace Stood

variable {W' : Wait → Prop} {e : Entry}

theorem withSpending (h : Stood env m₀ W s) (spending : Spending) :
    Stood env m₀ W { s with spending := spending } := by
  obtain ⟨since, hr, hw⟩ := h
  exact ⟨since, hr.tail (.goesOn ⟨s, since⟩ rfl rfl (Nat.le_refl _) id), hw⟩

theorem frame (hW : ∀ w, W w → w.IsOver) : Frame env (Stood env m₀ W) where
  calm := fun {s s'} ⟨since, hr, hw⟩ c =>
    ⟨since, hr.trans (reaches_calm (m := ⟨s, since⟩) c), (lasting_of_over hW).calm hw c⟩
  beside := fun {s s'} ⟨since, hr, hw⟩ hb => by
    refine ⟨since, reaches_beside hr hb, ?_⟩
    rw [hb.journal]
    exact hw

theorem frame_at {w : Wait} (hw : w.IsOver) : Frame env (Stood env m₀ (· = w)) :=
  frame fun _ h => by
    rw [h]
    exact hw

theorem imp (h : Stood env m₀ W s) (hW : ∀ w, W w → W' w) : Stood env m₀ W' s := by
  obtain ⟨since, hr, hw⟩ := h
  exact ⟨since, hr, hW _ hw⟩

/-- An entry that fits leads from where a run stands to where the entry takes it. -/
theorem note (h : Stood env m₀ W s) (hown : e.isOfWait = false)
    (hW : ∀ w, W w → e.FitsIn env w ∧ W' (w.after env.runId e)) :
    Stood env m₀ W' (s.note e) := by
  obtain ⟨since, hr, hw⟩ := h
  obtain ⟨hfits, hafter⟩ := hW _ hw
  refine ⟨_, hr.tail (.notes ⟨s, since⟩ hown hfits), ?_⟩
  show W' (waitOf env.runId (s.journal ++ [e]))
  rw [waitOf_snoc]
  exact hafter

theorem note_at {w w' : Wait} (h : Stood env m₀ (· = w) s) (hown : e.isOfWait = false)
    (hfits : e.FitsIn env w) (hafter : w.after env.runId e = w') :
    Stood env m₀ (· = w') (s.note e) :=
  h.note hown fun _ hw => by
    subst hw
    exact ⟨hfits, hafter⟩

/-- A run that works on no call may say what it likes. -/
theorem noting_idle (env : Env) (m₀ : Moment) :
    Noting env (Stood env m₀ (· = .idle)) (fun e => e.isSaid = true) where
  toFrame := frame_at rfl
  note := fun {s e} h he => by
    cases e with
    | event e => exact h.note_at rfl he (by cases e <;> rfl)
    | _ => cases he

/-- So may one that puts an answer together, for its pieces. -/
theorem noting_answering (env : Env) (m₀ : Moment) :
    Noting env (Stood env m₀ (· = .answering)) (fun e => e.isHeard = true) where
  toFrame := frame_at rfl
  note := fun {s e} h he => by
    cases e with
    | attempt => exact h.note_at rfl (Or.inl he) rfl
    | event e => exact h.note_at rfl (Or.inl he) (by cases e <;> rfl)
    | _ => cases he

theorem noting_paused (env : Env) (m₀ : Moment) :
    Noting env (Stood env m₀ (Wait.IsPaused env)) (fun e => e.isSaid = true) where
  toFrame := frame fun _ hw => hw.over
  note := fun {s e} h he => by
    cases e with
    | event e =>
      refine h.note rfl fun w hw => ?_
      rcases hw with rfl | rfl | ⟨call, rfl, hnot⟩
      · exact ⟨he, Or.inl (by cases e <;> rfl)⟩
      · refine ⟨Or.inl ?_, Or.inr (Or.inl (by cases e <;> rfl))⟩
        cases e with
        | toolResult => cases he
        | _ => rfl
      · cases e with
        | toolCall => cases he
        | toolResult => cases he
        | _ => exact ⟨hnot, Or.inr (Or.inr ⟨call, rfl, hnot⟩)⟩
    | _ => cases he

end Stood

/-! ## A wait -/

/-- What is so of the halts that a call brings about: no wait is refused, and a client that answers
at once is in time. -/
def HaltFits (env : Env) : Halt → Prop
  | .failed (.frontendTimeout _ _) =>
    ¬ (env.client.AnswersAtOnce env.runId ∧ 0 < env.frontendTimeoutMs)
  | .failed (.rendezvous _) => False
  | _ => True

/-- How a call may break off. -/
abbrev BrokeOff (env : Env) (m₀ : Moment) : Halt → State → Prop :=
  Broke (Stood env m₀ (Wait.IsPaused env)) (Stood env m₀ Wait.IsOver) (HaltFits env)

theorem State.Steady.released (h : s.Steady) (handle : Handle) : (s.released handle).Steady :=
  State.Steady.note (s := s.withRendezvous (s.world.rendezvous.release handle)) (h.congr rfl rfl) _

/-- A run came to a state in which it holds a handle, and has shown its call or has not. -/
structure Asks (env : Env) (m₀ : Moment) (handle : Handle) (shown : Bool) (since : Nat)
    (s : State) : Prop where
  reached : Reaches env m₀ ⟨s, since⟩
  held : handle ∈ s.world.rendezvous.held
  shown : (waitOf env.runId s.journal).isShown = shown

section Wait

variable {handle : Handle} {shown : Bool} {since : Nat} (h₀ : m₀.Holds env)

include h₀

theorem Asks.holding (ha : Asks env m₀ handle shown since s) : Holding handle s :=
  ⟨(h₀.reaches ha.reached).sound, ha.held⟩

theorem Asks.frame : Frame env (Asks env m₀ handle shown since) where
  calm := fun {s s'} ha c =>
    ⟨ha.reached.trans (reaches_calm (m := ⟨s, since⟩) c), ((ha.holding h₀).calm c).held,
      lasting_shown.calm ha.shown c⟩
  beside := fun {s s'} ha hb => by
    refine ⟨reaches_beside ha.reached hb, ?_, ?_⟩
    · rw [hb.rendezvous]
      exact ha.held
    · rw [hb.journal]
      exact ha.shown

theorem Asks.stands (ha : Asks env m₀ handle shown since s) (hrun : handle.key.runId = env.runId) :
    waitOf env.runId s.journal =
      .waiting handle.key.callId shown (s.world.rendezvous.received? handle) := by
  have hm : Moment.Holds env ⟨s, since⟩ := h₀.reaches ha.reached
  obtain ⟨-, shown', hw⟩ := hm.tied.of_held ha.held hrun
  have hw : waitOf env.runId s.journal =
      .waiting handle.key.callId shown' (s.world.rendezvous.received? handle) := hw
  have hshown := ha.shown
  rw [hw] at hshown ⊢
  rw [← hshown]
  rfl

theorem Asks.note_echo (ha : Asks env m₀ handle false since s)
    (hkey : handle.key = ⟨env.runId, call.id⟩) (args : Json) :
    Asks env m₀ handle true s.now (s.note (.event (echo call args .frontend))) := by
  have hw := ha.stands h₀ (by rw [hkey])
  refine ⟨ha.reached.tail (.notes ⟨s, since⟩ rfl ?_), ha.held, ?_⟩
  · show (Entry.event (echo call args .frontend)).FitsIn env (waitOf env.runId s.journal)
    rw [hw, hkey]
    exact ⟨rfl, call, args, rfl, rfl⟩
  · show (waitOf env.runId (s.journal ++ [_])).isShown = true
    rw [waitOf_snoc, hw, Wait.after_event]
    rfl

/-- A wait that ends leaves nothing, or the payload that came. -/
theorem Asks.ended (ha : Asks env m₀ handle shown since s) (hrun : handle.key.runId = env.runId)
    (htold : shown = true ∨ s.channel.connected = false)
    (hover : (s.world.rendezvous.received? handle).isSome = true ∨ s.channel.connected = false ∨
      since + env.frontendTimeoutMs ≤ s.now) :
    Stood env m₀ (· = match s.world.rendezvous.received? handle with
        | some payload => .owed handle.key.callId payload
        | none => .idle) (s.released handle) := by
  have hshown := ha.shown
  refine ⟨since, ha.reached.tail (.ends ⟨s, since⟩ hrun ha.held ?_ hover), ?_⟩
  · show (waitOf env.runId s.journal).isShown = true ∨ s.channel.connected = false
    rw [hshown]
    exact htold
  · show waitOf env.runId (s.journal ++ [_]) = _
    rw [waitOf_snoc, ha.stands h₀ hrun]
    cases s.world.rendezvous.received? handle <;> rfl

theorem Asks.ended_gone (ha : Asks env m₀ handle shown since s)
    (hrun : handle.key.runId = env.runId) (hgone : s.channel.connected = false) :
    Stood env m₀ Wait.IsOver (s.released handle) := by
  refine (ha.ended h₀ hrun (Or.inr hgone) (Or.inr (Or.inl hgone))).imp fun w hw => ?_
  rw [hw]
  cases s.world.rendezvous.received? handle <;> rfl

/-- Where a wait leaves the run, by what it came to. -/
theorem Asks.came {result : WaitResult} (ha : Asks env m₀ handle true since s)
    (hrun : handle.key.runId = env.runId)
    (hcame : CameTo handle (since + env.frontendTimeoutMs) s result) :
    Stood env m₀ (match result with
      | .payload value => (· = .owed handle.key.callId value)
      | .timeout => (· = .idle)
      | .gone => Wait.IsOver) (s.released handle) := by
  have ended := ha.ended h₀ hrun (Or.inl rfl)
  cases result with
  | payload value =>
    have hreceived : s.world.rendezvous.received? handle = some value := hcame
    rw [hreceived] at ended
    exact ended (Or.inl rfl)
  | timeout =>
    obtain ⟨hnone, hup⟩ := hcame
    rw [hnone] at ended
    exact ended (Or.inr (Or.inr hup))
  | gone => exact ha.ended_gone h₀ hrun hcame

/-- A run that does not wait has its wait registered. -/
theorem Stood.registers (h : Stood env m₀ Wait.IsOver s) (callId : String) :
    ∃ handle r, s.world.rendezvous.register ⟨env.runId, callId⟩ = (.ok handle, r) := by
  obtain ⟨since, hr, hover⟩ := h
  have hm : Moment.Holds env ⟨s, since⟩ := h₀.reaches hr
  -- A slot of this key would be that of a wait of this run.
  have hfree : s.world.rendezvous.isPending ⟨env.runId, callId⟩ = false := by
    rw [Bool.eq_false_iff, Ne, hm.pending_iff]
    rintro ⟨shown, hopen⟩
    have hopen : waitOf env.runId s.journal = .waiting callId shown none := hopen
    rw [hopen] at hover
    cases hover
  obtain ⟨r, hreg, -⟩ := Rendezvous.register_free hfree
  exact ⟨_, r, hreg⟩

omit h₀ in
theorem Stood.begins {r : Rendezvous} (h : Stood env m₀ (· = .called call) s)
    (hasks : env.AsksClient call) (hkey : handle.key = ⟨env.runId, call.id⟩)
    (hreg : s.world.rendezvous.register ⟨env.runId, call.id⟩ = (.ok handle, r)) :
    ∃ since, Asks env m₀ handle false since
      ((s.withRendezvous r).note (.waitBegan handle.key)) := by
  obtain ⟨since, hr, hcalled⟩ := h
  rw [← hkey] at hreg
  refine ⟨since, hr.tail (.begins ⟨s, since⟩ hcalled hasks hkey hreg),
    Rendezvous.held_of_register hreg, ?_⟩
  show (waitOf env.runId (s.journal ++ [_])).isShown = false
  rw [waitOf_snoc]
  rfl

/-- A wait for a client comes to a payload, which is then owed, or ends the run. -/
theorem awaitClient_stood (args : Json) (hasks : env.AsksClient call)
    (h : Kept (Stood env m₀ (· = .called call)) s) :
    Ensures (awaitClient env call args) s
      (fun value s' => Kept (Stood env m₀ (· = .owed call.id value)) s') (BrokeOff env m₀) := by
  -- The call is the last that was put into the channel, so nobody has taken it yet.
  refine ensures_awaitClient (R := fun handle s₁ =>
      Kept (fun s' => Asks env m₀ handle true s'.now s') s₁ ∧
        echo call args .frontend ∈ s₁.channel.queue)
    (fun e r hreg => ?_) (fun handle r hkey hreg => ?_)
    (fun handle s₁ result s₂ hkey h₁ hwait => ?_)
  · obtain ⟨handle, r', hok⟩ := (h.1.imp fun _ hw => hw ▸ rfl).registers h₀ call.id
    rw [hreg] at hok
    cases hok
  · obtain ⟨since, hbegan⟩ := h.1.begins hasks hkey hreg
    have began : Kept (Asks env m₀ handle false since)
        ((s.withRendezvous r).note (.waitBegan handle.key)) :=
      ⟨hbegan, State.Steady.note (s := s.withRendezvous r) (h.2.congr rfl rfl) _⟩
    refine (((Asks.frame h₀).emit_kept (L := fun s' => Asks env m₀ handle true s'.now s')
      (fun ha => ha.note_echo h₀ hkey args) rfl began).and
      (emit_run began.2.opened began.2.room _)).mono (fun _ s₁ h₁ => ?_) (fun halt s₁ h₁ => ?_)
    · obtain ⟨hasks₁, sent, -, hsent⟩ := h₁
      refine ⟨hasks₁, ?_⟩
      rw [hsent]
      exact List.mem_append_right _ (List.mem_singleton_self _)
    · obtain ⟨⟨hgone, hasks₁, hsteady₁⟩, -⟩ := h₁
      have hover := hasks₁.ended_gone h₀ (by rw [hkey]) hgone.2
      refine ⟨hsteady₁.released handle, Or.inr ⟨hgone, hover⟩, fun h => ?_⟩
      rw [hgone.1] at h
      cases h
  · obtain ⟨⟨hasks₁, hsteady₁⟩, hqueued⟩ := h₁
    have hrun : handle.key.runId = env.runId := by rw [hkey]
    have hholding := hasks₁.holding h₀
    have hcame := awaitSubmission_came env (s₁.now + env.frontendTimeoutMs) hholding
    have c : Calm env s₁ (awaitSubmission env handle (s₁.now + env.frontendTimeoutMs) s₁).2 :=
      Calm.refl.after_awaitSubmission _ _
    have hinTime : env.client.AnswersAtOnce env.runId → 0 < env.frontendTimeoutMs →
        (awaitSubmission env handle (s₁.now + env.frontendTimeoutMs) s₁).1 ≠ .timeout := by
      intro hanswers hpositive
      refine awaitSubmission_inTime hanswers rfl hkey ⟨hholding, Or.inr (Or.inr hqueued)⟩ ?_
      exact Nat.lt_add_of_pos_right hpositive
    rw [hwait] at hcame c hinTime
    have hstood := ((Asks.frame h₀).calm hasks₁ c).came h₀ hrun hcame
    have hsteady : (s₂.released handle).Steady := (hsteady₁.calm c).released handle
    cases result with
    | payload value =>
      rw [hkey] at hstood
      exact ⟨hstood, hsteady⟩
    | timeout =>
      refine ⟨hsteady, Or.inl (hstood.imp fun w hw => Or.inl hw), fun _ => ?_⟩
      rintro ⟨hanswers, hpositive⟩
      exact hinTime hanswers hpositive rfl
    | gone =>
      have hgone : s₂.channel.connected = false := hcame
      simp only [hgone, Bool.false_eq_true, if_false]
      exact ⟨hsteady, Or.inr ⟨⟨rfl, hgone⟩, hstood⟩, fun h => by cases h⟩

end Wait

/-! ## Answering a call -/

/-- A result goes out that is owed, or that a call in hand may have. -/
theorem complete_stood {w : Wait} {result : Json} {change : Option PlanChange} (args : Json)
    (hw : w = .called call ∧ (IsDenial result ∨ ¬ env.AsksClient call) ∨ w = .owed call.id result)
    (h : Kept (Stood env m₀ (· = w)) s) :
    Ensures (complete env call args result change) s
      (fun _ s' => Kept (Stood env m₀ (· = .idle)) s') (BrokeOff env m₀) := by
  have hover : w.IsOver := by
    rcases hw with ⟨rfl, -⟩ | rfl <;> rfl
  have hnoting := Stood.noting_idle env m₀
  refine ((Stood.frame_at hover).complete_kept hnoting.toFrame args (fun hs => ?_) (fun hs => hnoting.note hs rfl)
    h).mono (fun _ _ h₁ => h₁) (fun halt s₁ h₁ => ?_)
  · rcases hw with ⟨rfl, hreason⟩ | rfl
    · exact hs.note_at rfl ⟨rfl, hreason⟩ rfl
    · exact hs.note_at rfl rfl rfl
  · obtain ⟨hgone, hstood | hidle⟩ := h₁
    · refine ⟨hstood.2, Or.inr ⟨hgone, hstood.1.imp fun w' hw' => hw' ▸ hover⟩, fun h => ?_⟩
      rw [hgone.1] at h
      cases h
    · exact .of_gone hgone ⟨hidle.1.imp fun w hw => Or.inl hw, hidle.2⟩

section Dispatch

variable {tool : Tool} (h₀ : m₀.Holds env)

theorem not_frontend_of_action :
    some ToolKind.action.text ≠ some ToolKind.frontend.text := by decide

theorem not_asksClient (hget : env.tools.get? call.name = some tool)
    (hkind : tool.kind ≠ .frontend) : ¬ env.AsksClient call := by
  rintro ⟨-, tool', hget', hkind'⟩
  rw [hget] at hget'
  cases hget'
  exact hkind hkind'

include h₀

/-- What is owed after a call for the client was worked off is its result. -/
theorem workOff_stood (args : Json) (htakes : takesSlot call = true)
    (hget : env.tools.get? call.name = some tool) (h : Kept (Stood env m₀ (· = .called call)) s) :
    Ensures (workOff env tool call args) s
      (fun result s' => ¬ env.AsksClient call ∧ Kept (Stood env m₀ (· = .called call)) s' ∨
        Kept (Stood env m₀ (· = .owed call.id result)) s') (BrokeOff env m₀) := by
  have hframe : Frame env (Stood env m₀ (· = .called call)) := Stood.frame_at rfl
  have paused {s' : State} (hnot : ¬ env.AsksClient call)
      (h' : Kept (Stood env m₀ (· = .called call)) s') :
      Kept (Stood env m₀ (Wait.IsPaused env)) s' :=
    ⟨h'.1.imp fun w hw => Or.inr (Or.inr ⟨call, hw, hnot⟩), h'.2⟩
  refine ensures_workOff (fun hkind => ?_) (fun hkind => ?_) (fun hkind => ?_)
  · exact (awaitClient_stood h₀ args ⟨htakes, tool, hget, hkind⟩ h).imp fun _ _ h₁ => Or.inr h₁
  · have hnot : ¬ env.AsksClient call := not_asksClient hget (by rw [hkind]; decide)
    refine (hframe.emit_kept (fun hs => ?_) rfl h).mono (fun _ _ h₁ => Or.inl ⟨hnot, h₁⟩)
      (fun _ _ h₁ => .of_gone h₁.1 (paused hnot h₁.2))
    exact hs.note_at rfl ⟨rfl, not_frontend_of_action, hnot⟩ rfl
  · have hnot : ¬ env.AsksClient call := not_asksClient hget (by rw [hkind]; decide)
    refine (hframe.runTool_kept hframe id args (fun hs => hs.note_at rfl ⟨rfl, hnot⟩ rfl) h).mono
      (fun result s₁ h₁ => Or.inl ⟨hnot, h₁.1⟩) (fun halt s₁ h₁ => ?_)
    exact .of_kept (paused hnot h₁.2) (by rw [h₁.1]; rfl)

theorem dispatch_stood (call : Call) (h : Kept (Stood env m₀ (· = .idle)) s) :
    Ensures (dispatch env call) s (fun _ s' => Kept (Stood env m₀ (· = .idle)) s')
      (BrokeOff env m₀) := by
  have taken : Kept (Stood env m₀ (· = .called call)) (s.note (.dispatch call)) :=
    ⟨h.1.note_at rfl trivial rfl, h.2.note _⟩
  refine (Stood.frame_at (w := .called call) rfl).dispatch_kept
    (fun spending hs => hs.withSpending spending)
    (fun args result change hreason h' => complete_stood args (Or.inl ⟨rfl, hreason⟩) h')
    (fun args htakes hget h' => ?_) taken
  refine (workOff_stood h₀ args htakes hget h').imp fun result s₁ h₁ => ?_
  rcases h₁ with ⟨hnot, hcalled⟩ | howed
  · exact complete_stood args (Or.inl ⟨rfl, Or.inr hnot⟩) hcalled
  · exact complete_stood args (Or.inr rfl) howed

/-- The stages of a run wait for the client only while a call for it is worked on. -/
theorem stood_keeps :
    Keeps env (Stood env m₀ (· = .idle)) (Stood env m₀ (· = .answering))
      (Stood env m₀ (Wait.IsPaused env)) (Stood env m₀ Wait.IsOver) (HaltFits env) where
  between := Stood.noting_idle env m₀
  during := Stood.noting_answering env m₀
  halted := Stood.noting_paused env m₀
  asks := fun _ _ h => h.note_at rfl trivial rfl
  answers := fun request turn h => h.note_at rfl (Or.inr ⟨request, turn, rfl⟩) rfl
  stops := fun h => h.imp fun _ hw => Or.inl hw
  breaks := fun h => h.imp fun _ hw => Or.inr (Or.inl hw)
  dispatch := fun call h => dispatch_stood h₀ call h
  gone := fun hover _ c => (Stood.frame fun _ hw => hw).calm hover c

end Dispatch

/-! ## Whole runs -/

/-- What a client finds of the waits of a run at any moment that comes after the start, whatever
clients and other runs do. -/
structure FindsWaits (env : Env) (m₀ : Moment) : Prop where
  /-- A slot is there just while the run waits for the call and nobody has submitted. -/
  pending : ∀ m, Reaches env m₀ m → ∀ callId,
    m.state.world.rendezvous.isPending ⟨env.runId, callId⟩ = true ↔
      (waitOf env.runId m.state.journal).IsOpen callId
  /-- The run waits for one call at a time and shows nothing else then. The first submission is
  accepted, and its payload is the next thing to be shown. -/
  fits : ∀ m, Reaches env m₀ m → Fitting env m.state.journal
  /-- As long as the client is there, no wait ends before its call was shown. -/
  told : ∀ m, Reaches env m₀ m → m.state.channel.connected = true →
    Throughout (Told env.runId) m.state.journal
  /-- Whoever submits first, in time and while the client is there, is accepted. -/
  accepted : ∀ m m' callId later payload, Reaches env m₀ m → Reaches env m m' →
    (waitOf env.runId m.state.journal).IsOpen callId →
    m'.state.journal = m.state.journal ++ later → ¬ Submitted ⟨env.runId, callId⟩ later →
    m'.state.channel.connected = true →
    m'.state.now < m.since + env.frontendTimeoutMs →
    (m'.state.world.rendezvous.submit ⟨env.runId, callId⟩ payload).1 = .ok

/-- What a run did about its waits, and what its end leaves of them. -/
structure EndsWaits (env : Env) (m₀ : Moment) (o : Outcome) : Prop where
  /-- The run took no other steps. -/
  reached : ∃ since, Reaches env m₀ ⟨o.final, since⟩
  /-- It was at a moment on its way for each part of its journal. -/
  passed : ∀ before after, o.final.journal = before ++ after → ∃ m since,
    Reaches env m₀ m ∧ m.state.journal = before ∧ Reaches env m ⟨o.final, since⟩
  /-- A call for the client that was taken up is waited for before anything else is done, unless the
  budget denies it. Of a call that is denied nothing may be shown if the client is gone. -/
  asked : ∀ before call after, o.final.journal = before ++ .dispatch call :: after →
    env.AsksClient call →
    firstOwn? after = some (.waitBegan ⟨env.runId, call.id⟩) ∨
      (∃ result, IsDenial result ∧
        firstOwn? after = some (.event (.toolResult call.id result))) ∨
      firstOwn? after = none ∧ o.final.channel.connected = false
  /-- No piece of a call goes to the client but as the model gives an answer with it, or during the
  wait for the call, which is open as long as no payload was accepted. -/
  echoed : ∀ before p after, o.final.journal = before ++ .event (.toolCall p) :: after →
    p.callType = some ToolKind.frontend.text →
    Composing before ∨ ∃ call since, call.id = p.id ∧ WaitsWith env before call since ∧
      ((waitOf env.runId before).IsOpen p.id ∨
        ∃ payload, Accepted ⟨env.runId, p.id⟩ payload since)
  /-- A call for the client is answered with a payload that was accepted for it since it was taken
  up, unless the budget denied it. -/
  answered : ∀ before callId result after,
    o.final.journal = before ++ .event (.toolResult callId result) :: after →
    ∃ call since, call.id = callId ∧ TakenLast before call since ∧ (env.AsksClient call →
      IsDenial result ∧ Unawaited since ∨ Accepted ⟨env.runId, callId⟩ result since)
  sound : o.final.world.rendezvous.Sound
  /-- No handle of the run is left, and no slot. -/
  unheld : ∀ h ∈ o.final.world.rendezvous.held, h.key.runId ≠ env.runId
  released : ∀ h ∈ o.final.world.rendezvous.slots, h.key.runId ≠ env.runId
  /-- The first result behind an accepted submission is its payload, unless the client is gone. -/
  shown : ∀ before ticket key payload ack after,
    o.final.journal = before ++ .submission ticket key payload ack :: after →
    key.runId = env.runId → ack.accepted = true →
    firstResult? after = some (.toolResult key.callId payload) ∨
      firstResult? after = none ∧ o.final.channel.connected = false
  /-- No wait is refused or found abandoned. -/
  unrefused : ∀ e, o.stages ≠ .error (.failed (.rendezvous e))
  /-- A client that answers at once is never told that it was late. -/
  inTime : env.client.AnswersAtOnce env.runId → 0 < env.frontendTimeoutMs →
    .finish .timeout ∉ o.delivered

theorem Moment.Holds.findsWaits (h₀ : m₀.Holds env) : FindsWaits env m₀ where
  pending := fun m hr callId => (h₀.reaches hr).pending_iff callId
  fits := fun m hr => (h₀.reaches hr).fits
  told := fun m hr => (h₀.reaches hr).told
  accepted := by
    intro m m' callId later payload hr hr' hw hjournal hnone hconn htime
    have hm : m.Holds env := h₀.reaches hr
    obtain ⟨later', honward, hopen⟩ := hr'.stillOpen hm hw
    have hlater : later' = later := List.append_cancel_left (honward.journal.symm.trans hjournal)
    rw [hlater] at hopen
    rcases hopen with hw' | hsubmitted | hgone | hup
    · have hm' : m'.Holds env := hm.reaches hr'
      obtain ⟨h, hslot, hkey⟩ := (hm'.tied.pending_iff hm'.sound callId).mpr hw'
      rw [hm'.sound.submit_eq, (hm'.sound.slot_eq_some).mpr ⟨hslot, hkey⟩]
    · exact absurd hsubmitted hnone
    · rw [hconn] at hgone
      cases hgone
    · exact absurd htime (Nat.not_lt.mpr hup)

/-- A run that does not wait holds nothing. -/
theorem Moment.Holds.unheld {m : Moment} (h : m.Holds env)
    (hover : (waitOf env.runId m.state.journal).IsOver) :
    ∀ handle ∈ m.state.world.rendezvous.held, handle.key.runId ≠ env.runId := by
  intro handle hheld hrun
  obtain ⟨-, shown, hw⟩ := h.tied.of_held hheld hrun
  rw [hw] at hover
  cases hover

/-- A payload that was accepted is shown next, unless the run comes to an end before. -/
theorem Fitting.shown {before after : List Entry} {ticket : Nat} {key : WaitKey} {payload : Json}
    {ack : SubmitAck} (h : Fitting env (before ++ .submission ticket key payload ack :: after))
    (hrun : key.runId = env.runId) (haccepted : ack.accepted = true) :
    firstResult? after = some (.toolResult key.callId payload) ∨
      firstResult? after = none ∧
        (waitOf env.runId (before ++ .submission ticket key payload ack :: after)).HasPayload
          key.callId payload := by
  obtain ⟨shown, hw⟩ := (h before _ after rfl hrun).mp haccepted
  have hsplit : before ++ .submission ticket key payload ack :: after =
      (before ++ [.submission ticket key payload ack]) ++ after := by simp
  rw [hsplit] at h ⊢
  refine firstResult_of_payload h (Or.inl ⟨shown, ?_⟩)
  rw [waitOf_snoc, hw]
  exact congrArg (Wait.waiting key.callId shown) (if_pos (by rw [← hrun]))

/-- A run that halted where there was a client has no payload left to show. -/
theorem Wait.IsPaused.no_payload {w : Wait} {callId : String} {payload : Json}
    (h : w.IsPaused env) : ¬ w.HasPayload callId payload := by
  rintro (⟨shown, rfl⟩ | rfl)
  · cases h.over
  · rcases h with h | h | ⟨call, h, -⟩ <;> cases h

/-- Nor has it a call for the client in hand. -/
theorem Wait.IsPaused.not_asked (h : (Wait.called call).IsPaused env) : ¬ env.AsksClient call := by
  rcases h with h | h | ⟨call, h, hnot⟩
  · cases h
  · cases h
  · cases h
    exact hnot

theorem endsWaits {o : Outcome} (h₀ : m₀.Holds env) (hnew : m₀.state.journal = [])
    (hleft : Left (Stood env m₀ (Wait.IsPaused env)) (Stood env m₀ Wait.IsOver) o.final)
    (hunrefused : ∀ e, o.stages ≠ .error (.failed (.rendezvous e)))
    (hinTime : env.client.AnswersAtOnce env.runId → 0 < env.frontendTimeoutMs →
      .finish .timeout ∉ o.delivered) : EndsWaits env m₀ o := by
  have hstood : Stood env m₀ Wait.IsOver o.final :=
    hleft.kept.elim (fun hpaused => hpaused.imp fun w hw => hw.over) And.right
  -- Where the run did not stand so at its end, its client is gone.
  have gone {W : Wait → Prop} (hW : W (waitOf env.runId o.final.journal))
      (hnot : ∀ w, w.IsPaused env → ¬ W w) : o.final.channel.connected = false := by
    rcases hleft.kept with ⟨-, -, hpaused⟩ | ⟨hgone, -⟩
    · exact absurd hW (hnot _ hpaused)
    · exact hgone
  obtain ⟨since, hreached, hover⟩ := hstood
  have hm : Moment.Holds env ⟨o.final, since⟩ := h₀.reaches hreached
  have hfits : Fitting env o.final.journal := hm.fits
  refine ⟨⟨since, hreached⟩, ?_, ?_, ?_, ?_, hm.sound, hm.unheld hover, ?_, ?_, hunrefused, hinTime⟩
  · intro before after hsplit
    obtain ⟨m, hto, hbefore, hfrom⟩ := hreached.through hsplit (by simp [hnew])
    exact ⟨m, since, hto, hbefore, hfrom⟩
  · intro before call after hsplit hasks
    have hsplit' : before ++ .dispatch call :: after = (before ++ [.dispatch call]) ++ after := by
      simp
    rw [hsplit] at hfits
    have htaken := hfits.taken
    rw [hsplit'] at hfits hsplit
    refine (hfits.asked htaken hasks).imp id fun h => h.imp id fun h => ⟨h.1, ?_⟩
    rw [← hsplit] at h
    exact gone (W := (· = .called call)) h.2 fun w hw heq => (heq ▸ hw).not_asked hasks
  · intro before p after hsplit
    rw [hsplit] at hfits
    exact hfits.echoed
  · intro before callId result after hsplit
    rw [hsplit] at hfits
    exact hfits.answered
  · exact fun h hslot => hm.unheld hover h (hm.sound.slots_held h hslot)
  · intro before ticket key payload ack after hsplit hrun haccepted
    rw [hsplit] at hfits
    refine (hfits.shown hrun haccepted).imp id fun h => ⟨h.1, ?_⟩
    rw [← hsplit] at h
    exact gone h.2 fun w hw => hw.no_payload

section Engine

variable {engine : Engine} {turn : UserTurn} {world : World} {fuel : Nat}

/-- A run is told of a timeout only at its end, and only if it came to one. -/
theorem timedOut_of_events
    (hmem : .finish .timeout ∈ (engine.run turn world fuel).final.events) :
    TimedOut (engine.run turn world fuel).stages := by
  obtain ⟨t, l, a, h⟩ := ran engine turn world fuel
  have hbody : ∀ e ∈ eventsOf t, e.isFinish = false := by
    rw [← h.stands.trail, State.eventsOf_trail]
    exact h.stands.ready.unfinished
  have hending : .finish .timeout ∈ endingOf (IdKind.block.mint engine.supply a.minted)
      (engine.run turn world fuel).stages := by
    have hsplit (done : List Event) (htrail : (engine.run turn world fuel).final.trail =
        t ++ done.map .event) : .finish .timeout ∈ done := by
      rw [← State.eventsOf_trail, htrail, eventsOf_append, eventsOf_map_event] at hmem
      refine (List.mem_append.mp hmem).resolve_left fun hin => ?_
      cases hbody _ hin
    cases h.closed with
    | all texts hended hm => exact hsplit _ hended.trail
    | part texts hdone hended hgone => exact hdone.subset (hsplit _ hended.trail)
  cases hstages : (engine.run turn world fuel).stages with
  | ok _ => simp [hstages, endingOf] at hending
  | error halt =>
    rw [hstages] at hending
    unfold endingOf at hending
    cases halt with
    | failed e =>
      cases e with
      | frontendTimeout tool timeoutMs => exact ⟨tool, timeoutMs, rfl⟩
      | _ => simp [apology?] at hending
    | _ => simp [apology?] at hending

theorem start_holds (hsound : world.rendezvous.Sound)
    (hnew : ∀ h ∈ world.rendezvous.held, h.key.runId ≠ (engine.start turn world).1.runId) :
    Moment.Holds (engine.start turn world).1
      ⟨startState engine turn world (world.minted + 1), world.now⟩ where
  sound := hsound
  tied := by
    show world.rendezvous.held.filter _ = []
    rw [List.filter_eq_nil_iff]
    intro h hh
    simpa using hnew h hh
  fits := throughout_nil
  told := fun _ => throughout_nil
  since := Nat.le_refl _

/-- Where no wait of the run is registered before it starts, each of its waits can be answered from
before its call goes out until it is answered, too late or the client is gone; the answer is the
result of the call; and no wait outlives the run, nor the move in which it began. -/
theorem client_is_waited_for (engine : Engine) (turn : UserTurn) (world : World) (fuel : Nat)
    (hsound : world.rendezvous.Sound)
    (hnew : ∀ h ∈ world.rendezvous.held, h.key.runId ≠ (engine.start turn world).1.runId) :
    let m₀ : Moment := ⟨startState engine turn world (world.minted + 1), world.now⟩
    FindsWaits (engine.start turn world).1 m₀ ∧
      EndsWaits (engine.start turn world).1 m₀ (engine.run turn world fuel) ∧
      ∀ c s, Visits engine turn world fuel c s →
        (∃ since, Reaches (engine.start turn world).1 m₀ ⟨s, since⟩) ∧
        ∀ h ∈ s.world.rendezvous.held, h.key.runId ≠ (engine.start turn world).1.runId := by
  intro m₀
  have h₀ : m₀.Holds (engine.start turn world).1 := start_holds hsound hnew
  have hstart : Stood (engine.start turn world).1 m₀ (· = .idle) m₀.state := ⟨world.now, .refl, rfl⟩
  obtain ⟨hleft, hhalts⟩ := run_left (stood_keeps h₀) hstart fuel
  refine ⟨h₀.findsWaits, endsWaits h₀ rfl hleft (fun e he => hhalts _ he rfl) ?_,
    fun c s hvisits => ?_⟩
  · intro hanswers hpositive hmem
    have hevents := hleft.heard _ (List.mem_append_left _ hmem)
    obtain ⟨tool, timeoutMs, hstages⟩ := timedOut_of_events hevents
    exact hhalts _ hstages rfl ⟨hanswers, hpositive⟩
  · obtain ⟨since, hreached, hidle⟩ := (hvisits.kept (stood_keeps h₀) hstart).1
    exact ⟨⟨since, hreached⟩, (h₀.reaches hreached).unheld (by rw [hidle]; rfl)⟩

end Engine

/-- An engine with a tool of the client as its only tool, whose model has it called once. -/
def confirming : Engine :=
  { rehearsal [Script.ofChunks (Script.calls [("c1", "confirm", .empty)]) .done,
      Script.ofChunks (Script.texts ["Done."]) .done] with
    tools := .ofList [⟨⟨"confirm", "Ask the user to approve an action", .empty⟩, .frontend⟩] }

/-- A turn with a client that says yes to every call. -/
def agreeing : UserTurn :=
  { firstTurn .oneshot with client := CommandLine.submitter (.bool true) }

/-- The call of a tool of the client is answered in time with what its wait was given, and its wait
is given up. -/
theorem confirmation_is_waited_for :
    (confirming.run agreeing (.new 1) 0).final.acks = [(2, .ok)] ∧
      .toolResult "c1" (.bool true) ∈ (confirming.run agreeing (.new 1) 0).delivered ∧
      (∃ before after call since, (confirming.run agreeing (.new 1) 0).final.journal =
          before ++ .event (.toolResult "c1" (.bool true)) :: after ∧
        TakenLast before call since ∧ (confirming.start agreeing (.new 1)).1.AsksClient call ∧
        Accepted ⟨(confirming.start agreeing (.new 1)).1.runId, "c1"⟩ (.bool true) since) ∧
      .finish .timeout ∉ (confirming.run agreeing (.new 1) 0).delivered ∧
      ∀ h ∈ (confirming.run agreeing (.new 1) 0).final.world.rendezvous.slots,
        h.key.runId ≠ (confirming.start agreeing (.new 1)).1.runId := by
  obtain ⟨-, hends, -⟩ := client_is_waited_for confirming agreeing (.new 1) 0 Rendezvous.Sound.empty
    (fun h hh => absurd hh List.not_mem_nil)
  have hanswers : (confirming.start agreeing (.new 1)).1.client.AnswersAtOnce
      (confirming.start agreeing (.new 1)).1.runId :=
    CommandLine.submitter_answersAtOnce _ _
  have hpositive : 0 < (confirming.start agreeing (.new 1)).1.frontendTimeoutMs := by decide
  have hshown : .event (.toolResult "c1" (.bool true)) ∈
      (confirming.run agreeing (.new 1) 0).final.journal := by decide +kernel
  have honly : dispatched (confirming.run agreeing (.new 1) 0).final.journal =
      [⟨"c1", "confirm", "\x7b\x7d", 0⟩] := by decide +kernel
  obtain ⟨before, after, hsplit⟩ := List.append_of_mem hshown
  obtain ⟨call, since, -, hlast, hcame⟩ := hends.answered before _ _ after hsplit
  have hcall : call = ⟨"c1", "confirm", "\x7b\x7d", 0⟩ := by
    obtain ⟨earlier, rfl⟩ := hlast.taken
    have hmem : call ∈ dispatched (confirming.run agreeing (.new 1) 0).final.journal :=
      List.mem_filterMap.mpr ⟨.dispatch call, by simp [hsplit], rfl⟩
    rw [honly] at hmem
    exact List.mem_singleton.mp hmem
  have hasks : (confirming.start agreeing (.new 1)).1.AsksClient call := by
    rw [hcall]
    exact ⟨by decide +kernel, _, rfl, rfl⟩
  have haccepted := (hcame hasks).resolve_left fun ⟨⟨_, hdenied⟩, _⟩ => nomatch hdenied
  exact ⟨by decide +kernel, by decide +kernel,
    ⟨before, after, call, since, hsplit, hlast, hasks, haccepted⟩,
    hends.inTime hanswers hpositive, hends.released⟩

end AgentRun.Run
