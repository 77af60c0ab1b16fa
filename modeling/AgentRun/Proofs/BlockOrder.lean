import AgentRun.Proofs.Blocks

/-!
# The texts of a run

A run keeps its trail in order, as long as no name is minted twice. Between two moves no block is
open (`Paused`), so a marker, a plan, a result or a word of the engine may follow. While an answer
is put together its chunks go on with what they opened (`Voicing`). Whatever halts the run leaves
the trail in order (`Orderly`), even if not all of a chunk went out.
-/

namespace AgentRun.Run

variable {env : Env} {requests : List ModelRequest} {t : List Entry} {l : Ledger} {a : Assembly}
  {s s' : State} {begun : Bool}

/-- The trail is in order, unless a name was minted twice. -/
def Orderly (env : Env) (s : State) : Prop :=
  Set.InjOn env.supply (Set.Iio s.assembly.minted) → InOrder env.model s.trail

/-- A run with no block open. It may be in a model call that still waits for its answer. -/
structure Paused (env : Env) (begun : Bool) (s : State) : Prop where
  resting : Resting env s
  answering_eq : answering false s.trail = begun
  orderly : Orderly env s

/-- A run in the middle of an answer to the last of some requests. -/
structure Voicing (env : Env) (requests : List ModelRequest) (s : State) : Prop where
  ready : s.Ready env
  answering_eq : answering false s.trail = true
  requests_eq : requestsOf s.trail = requests
  spoken : Set.InjOn env.supply (Set.Iio s.assembly.minted) →
    Spoken env.model env.supply s.trail s.assembly

/-- The texts of a trail are in minted blocks. -/
theorem State.Ready.minted_of_mem (h : s.Ready env) {e : Event} (he : .event e ∈ s.trail)
    {block : String} (hb : e.block? = some block) :
    MintedBelow env.supply s.assembly.minted block := by
  have hevent : e ∈ s.events := by
    rw [← State.eventsOf_trail]
    exact mem_eventsOf.mpr he
  exact h.texts e hevent block hb

theorem Orderly.onwards (h : Orderly env s) (hle : s.assembly.minted ≤ s'.assembly.minted)
    (hstep : InOrder env.model s.trail → InOrder env.model s'.trail) : Orderly env s' :=
  fun hids => hstep (h (hids.mono (Set.Iio_subset_Iio hle)))

namespace Paused

theorem stands (h : Paused env begun s) :
    Stands env s.trail s.ledger (.start s.assembly.minted) s := by
  obtain ⟨k, p⟩ := h.resting
  have hminted : s.assembly.minted = k := congrArg Assembly.minted p.assembly
  exact hminted ▸ p

theorem of_stands {k : Nat} (p : Stands env t l (.start k) s) (hbegun : answering false t = begun)
    (horder : Set.InjOn env.supply (Set.Iio k) → InOrder env.model t) : Paused env begun s := by
  have hminted : s.assembly.minted = k := congrArg Assembly.minted p.assembly
  refine ⟨p.resting, p.trail ▸ hbegun, fun hids => ?_⟩
  rw [p.trail]
  exact horder (hminted ▸ hids)

/-- Entries that are no texts follow while the run pauses. -/
theorem follow {k : Nat} {u : List Entry} {begun' : Bool} (h : Paused env begun s)
    (p : Stands env (s.trail ++ u) l (.start k) s') (hle : s.assembly.minted ≤ k)
    (hu : ∀ x ∈ u, x.isText = false) (hbegun : answering begun u = begun') :
    Paused env begun' s' := by
  refine of_stands p ?_ (fun hids => ?_)
  · rw [answering_append, h.answering_eq, hbegun]
  · exact (h.orderly (hids.mono (Set.Iio_subset_Iio hle))).append_quiet hu

/-- The next answer begins where a run pauses in a model call. -/
theorem voicing (h : Paused env true s) : Voicing env (requestsOf s.trail) s := by
  refine ⟨h.stands.ready, h.answering_eq, rfl, fun hids => ?_⟩
  refine .of_closed (h.orderly hids) (fun e he block => h.stands.ready.minted_of_mem he)
    (fun voice => ?_)
  rw [h.stands.assembly]
  cases voice <;> rfl

end Paused

namespace Voicing

theorem stands (h : Voicing env requests s) : Stands env s.trail s.ledger s.assembly s :=
  ⟨rfl, rfl, rfl, h.ready⟩

theorem orderly (h : Voicing env requests s) : Orderly env s := fun hids => (h.spoken hids).inOrder

theorem calm (h : Voicing env requests s) (c : Calm env s s') : Voicing env requests s' := by
  refine ⟨h.ready.calm c, ?_, ?_, ?_⟩
  · rw [c.trail]
    exact h.answering_eq
  · rw [c.trail]
    exact h.requests_eq
  · rw [c.trail, c.assembly]
    exact h.spoken

theorem withWorld (h : Voicing env requests s) (w : World) :
    Voicing env requests { s with world := w } :=
  ⟨(h.stands.withWorld w).ready, h.answering_eq, h.requests_eq, h.spoken⟩

end Voicing

/-! ## Model calls -/

theorem takeChunk_voices (h : Voicing env requests s) {c : Chunk}
    (hc : ∀ e : Event, e.IsPieceOf c → Heard env.model requests e) :
    Ensures (takeChunk env c) s (fun _ s' => Voicing env requests s')
      (fun _ s' => Orderly env s') := by
  have hcontinues : Continues env.supply s.assembly (s.assembly.push env.supply c).1
      (s.assembly.push env.supply c).2 := .of_chunk c
  have hspoken (hids : Set.InjOn env.supply
      (Set.Iio (s.assembly.push env.supply c).2.minted)) :
      Spoken env.model env.supply (s.trail ++ (s.assembly.push env.supply c).1.map .event)
        (s.assembly.push env.supply c).2 := by
    have hbefore : Set.InjOn env.supply (Set.Iio s.assembly.minted) :=
      hids.mono (Set.Iio_subset_Iio hcontinues.minted)
    refine hcontinues.spoken (h.spoken hbefore) h.answering_eq (fun e he block hb => ?_) hids
    rw [h.requests_eq]
    exact hc e (push_pieces c s.assembly e he block hb)
  refine (takeChunk_spec h.stands c).mono (fun more s₁ h₁ => ?_) (fun halt s₁ h₁ => ?_)
  · obtain ⟨-, p₁⟩ := h₁
    refine ⟨p₁.ready, ?_, ?_, ?_⟩
    · rw [p₁.trail, answering_append, answering_event, h.answering_eq]
    · rw [p₁.trail, requestsOf_append, requestsOf_map_event, List.append_nil, h.requests_eq]
    · rw [p₁.trail, p₁.assembly]
      exact hspoken
  · obtain ⟨-, done, ⟨left, hdone⟩, p₁⟩ := h₁
    intro hids
    rw [p₁.assembly] at hids
    have horder := (hspoken hids).inOrder
    rw [← hdone, List.map_append, ← List.append_assoc] at horder
    rw [p₁.trail]
    exact horder.of_append

theorem attemptAnswer_voices (h : Paused env true s) (request : ModelRequest)
    (limit : Option Nat) :
    Ensures (attemptAnswer env request limit) s
      (fun _ s' => Voicing env (requestsOf s.trail ++ [request]) s')
      (fun _ s' => Orderly env s') := by
  have hnoted : Paused env true (s.note (.attempt s.now request)) :=
    h.follow (h.stands.note rfl rfl) (Nat.le_refl _) (by simp [Entry.isText]) rfl
  have hrequests : requestsOf (s.note (.attempt s.now request)).trail =
      requestsOf s.trail ++ [request] := by
    rw [(h.stands.note rfl rfl).trail, requestsOf_append]
    rfl
  have hasked := (hrequests ▸ hnoted.voicing).withWorld
    { (s.note (.attempt s.now request)).world with requests := s.world.requests ++ [request] }
  refine ensures_attemptAnswer (I := fun _ => Voicing env (requestsOf s.trail ++ [request])) hasked
    (fun takes _ s₁ _ h₁ => ?_) (fun stream hopening c hc _ s₁ h₁ => ?_) (fun _ _ h₁ => h₁)
    (fun _ _ h₁ => h₁) (fun _ _ s₁ h₁ => h₁.orderly) (fun _ _ s₁ h₁ => h₁.orderly)
  · exact (waitFor_spec Calm.refl takes _).mono (fun _ s₂ c => h₁.calm c)
      (fun halt s₂ h₂ => (h₁.calm h₂.2).orderly)
  · refine takeChunk_voices h₁ fun e he => ?_
    exact ⟨request, by simp, s.world.requests, stream, hopening, c, hc, he⟩

theorem Voicing.next (h : Voicing env requests s) :
    Paused env true { s with assembly := s.assembly.next } :=
  .of_stands h.stands.next h.answering_eq h.orderly

theorem answerInTime_pauses (h : Paused env true s) (request : ModelRequest) (scope : Scope)
    (n : Nat) :
    Ensures (answerInTime env request scope n) s
      (fun answer s' => Paused env answer.isNone s') (fun _ s' => Orderly env s') := by
  refine ensures_answerInTime (attemptAnswer_voices h request scope.timeout?) (fun s₁ h₁ => ?_)
    (fun s₁ h₁ => h₁.orderly) (fun _ s₁ h₁ => h₁.next) (fun _ s₁ h₁ => h₁.orderly)
  exact h₁.next.follow (h₁.next.stands.note rfl rfl) (Nat.le_refl _) (by simp [Entry.isText]) rfl

theorem callModel_pauses (h : Paused env false s) (ask : Ask) :
    Ensures (callModel env ask) s (fun _ s' => Paused env false s')
      (fun _ s' => Orderly env s') := by
  -- A silent attempt leaves the call as it was; an answer ends it.
  refine callModel_by_attempts (I := Paused env true) h (fun spending _ => ?_)
    (fun _ _ n s₁ h₁ => ?_) (fun h₁ => h₁.orderly)
  · have p₁ : Stands env s.trail { s.ledger with spending := spending }
        (.start s.assembly.minted) { s with spending := spending } :=
      h.stands.withLedger rfl rfl rfl rfl rfl
    exact h.follow (p₁.note rfl rfl) (Nat.le_refl _) (by simp [Entry.isText]) rfl
  · refine (answerInTime_pauses h₁ _ _ n).imp (fun answer s₂ h₂ => ?_)
    cases answer with
    | some turn => exact h₂
    | none => exact h₂

/-! ## Tool calls -/

/-- A call is completed by filing it, and the rest stays. -/
theorem complete_stands (p : Stands env t l a s) (call : Call) (args result : Json)
    (change : Option PlanChange) :
    Ensures (complete env call args result change) s
      (fun _ s' => ∃ u, Stands env u (l.answered call args result) a s')
      (fun _ s' => s'.assembly = a) := by
  obtain rfl := p.ledger
  have filed : Stands env t (s.ledger.answered call args result) a (s.filed call args result) :=
    p.withLedger rfl rfl rfl rfl rfl
  refine ensures_complete
    (R := Stands env (t ++ [.event (.toolResult call.id result)])
      (s.ledger.answered call args result) a)
    ?_ (fun _ s₁ p₁ => ⟨_, p₁⟩) (fun _ s₁ p₁ => ?_)
  · exact (emit_spec filed rfl (minted_of_no_block rfl)).mono (fun _ _ p₁ => p₁)
      (fun halt s₁ h => h.2.assembly)
  · exact (showPlan_spec p₁).mono (fun _ s₂ p₂ => ⟨_, p₂⟩) (fun halt s₂ h => h.2.assembly)

/-- A tool call takes no minted name back. -/
theorem dispatch_raises {k : Nat} (p : Stands env t l (.start k) s) (call : Call) :
    Ensures (dispatch env call) s (fun _ s' => k ≤ s'.assembly.minted)
      (fun _ s' => k ≤ s'.assembly.minted) := by
  have p₀ : Stands env (t ++ [.dispatch call]) l (.start k) (s.note (.dispatch call)) :=
    p.note rfl rfl
  have completes {t' : List Entry} {l' : Ledger} {k' : Nat} {s' : State}
      (p' : Stands env t' l' (.start k') s') (hle : k ≤ k') (args result : Json)
      (change : Option PlanChange) :
      Ensures (complete env call args result change) s' (fun _ s'' => k ≤ s''.assembly.minted)
        (fun _ s'' => k ≤ s''.assembly.minted) := by
    have kept {s'' : State} (h : s''.assembly = .start k') : k ≤ s''.assembly.minted := by
      rw [h]
      exact hle
    refine (complete_stands p' call args result change).mono (fun _ s₁ h => ?_)
      (fun _ _ h => kept h)
    obtain ⟨u, p₁⟩ := h
    exact kept p₁.assembly
  refine ensures_dispatch (fun _ _ => completes p₀ (Nat.le_refl k) _ _ _) (fun raw tool _ _ => ?_)
    (fun raw hargs htool => ?_)
  · refine ((changePlan_spec p₀ tool _).and (changePlan_made env tool _ _)).mono
      (fun r s₁ h => ?_) (fun _ _ h => h.1.elim)
    obtain ⟨⟨plan, shown, k', -, -, p₁⟩, hmade⟩ := h
    have hk : k ≤ k' := by
      have hbefore : (s.note (.dispatch call)).assembly.minted = k :=
        congrArg Assembly.minted p₀.assembly
      have hafter : s₁.assembly.minted = k' := congrArg Assembly.minted p₁.assembly
      rcases hmade with ⟨change, -, -, hmore⟩ | ⟨-, rfl⟩
      · omega
      · omega
    exact completes p₁ hk _ _ _
  · refine (admitTool_spec p₀ (takesSlot_of_ok hargs htool)).mono (fun denied s₁ p₁ => ?_)
      (fun _ _ h => h.elim)
    cases denied with
    | some denied => exact completes p₁ (Nat.le_refl k) _ _ _
    | none =>
      cases env.tools.get? call.name with
      | none => exact completes p₁ (Nat.le_refl k) _ _ _
      | some tool =>
        refine (workOff_spec (.start p₁) tool _).mono (fun result s₂ h => ?_) (fun halt s₂ h => ?_)
        · obtain ⟨u, -, p₂⟩ := h
          exact completes p₂ (Nat.le_refl k) _ _ _
        · obtain ⟨-, u, -, p₂⟩ := h
          exact Nat.le_of_eq (congrArg Assembly.minted p₂.assembly).symm

theorem ofCall_not_text {v : List Entry} (h : ∀ x ∈ v, x.isOfCall = true) :
    ∀ x ∈ v, x.isText = false := by
  intro x hx
  have hof := h x hx
  cases x with
  | event e =>
    cases e with
    | content => cases hof
    | reasoning => cases hof
    | _ => rfl
  | _ => rfl

theorem dispatch_pauses (h : Paused env false s) (call : Call) :
    Ensures (dispatch env call) s (fun _ s' => Paused env false s')
      (fun _ s' => Orderly env s') := by
  have follows {v : List Entry} (hof : ∀ x ∈ v, x.isOfCall = true) :
      (∀ x ∈ v, x.isText = false) ∧ answering false v = false :=
    ⟨ofCall_not_text hof, (ownTexts_ofCall false hof).2⟩
  refine ((dispatch_spec h.stands call).and (dispatch_raises h.stands call)).mono
    (fun answer s₁ h₁ => ?_) (fun halt s₁ h₁ => ?_)
  · obtain ⟨⟨v, l', k', hv, p₁⟩, hle⟩ := h₁
    obtain ⟨htexts, hstill⟩ := follows hv.ofCall
    have hminted : s₁.assembly.minted = k' := congrArg Assembly.minted p₁.assembly
    exact h.follow p₁ (hminted ▸ hle) htexts hstill
  · obtain ⟨⟨v, l', a, p₁, hv⟩, hle⟩ := h₁
    have hof : ∀ x ∈ v, x.isOfCall = true := by
      rcases hv with ⟨-, hv⟩ | ⟨-, hv⟩
      · exact hv.ofCall
      · exact hv.ofCall
    refine h.orderly.onwards hle (fun horder => ?_)
    rw [p₁.trail]
    exact horder.append_quiet (follows hof).1

theorem dispatchAll_pauses (h : Paused env false s) (calls : List Call) :
    Ensures (dispatchAll env calls) s (fun _ s' => Paused env false s')
      (fun _ s' => Orderly env s') := by
  induction calls generalizing s with
  | nil => exact h
  | cons call rest ih =>
    simp only [dispatchAll, ensures_bind]
    exact (dispatch_pauses h call).imp fun _ s₁ h₁ => ih h₁

/-! ## Moves -/

/-- What the engine says goes into a new block. -/
theorem say_pauses (h : Paused env false s) :
    Ensures (say env budgetExhaustedMessage) s (fun _ s' => Paused env false s')
      (fun _ s' => Orderly env s') := by
  refine (say_spec h.stands budgetExhaustedMessage).mono (fun _ s₁ p₁ => ?_) (fun halt s₁ h₁ => ?_)
  · refine .of_stands (k := s.assembly.minted + 1) p₁ ?_ (fun hids => ?_)
    · rw [answering_append, h.answering_eq]
      rfl
    · have horder : InOrder env.model s.trail :=
        h.orderly (hids.mono (Set.Iio_subset_Iio (Nat.le_succ _)))
      have hfresh {block : String}
          (hblock : block = IdKind.block.mint env.supply s.assembly.minted) :
          ∀ e, .event e ∈ s.trail → e.block? ≠ some block :=
        fun e he hb => minted_ne hids (h.stands.ready.minted_of_mem he hb) hblock
      refine horder.snoc (fun e block he hb => ?_) (fun e block _ _ hanswering => ?_)
        (fun e block he hb _ => ?_)
      · cases he
        exact ⟨.content, rfl, .of_fresh (hfresh (Option.some.inj hb).symm)⟩
      · cases h.answering_eq.symm.trans hanswering
      · cases he
        rw [Option.some.inj hb]
  · have hnext : s₁.assembly.minted = s.assembly.minted + 1 :=
      congrArg Assembly.minted h₁.2.assembly
    exact h.orderly.onwards (by omega) (fun horder => h₁.2.trail ▸ horder)

theorem move_pauses (h : Paused env false s) {m : Move}
    (htell : ∀ text next, m = .tell text next → text = budgetExhaustedMessage) :
    Ensures (m.run env) s (fun _ s' => Paused env false s') (fun _ s' => Orderly env s') := by
  have stays {s' : State} {l' : Ledger} {a : Assembly} (p' : Stands env s.trail l' a s')
      (ha : a.minted = s.assembly.minted) : Orderly env s' := by
    have hnext : s'.assembly.minted = a.minted := congrArg Assembly.minted p'.assembly
    exact h.orderly.onwards (by omega) (fun horder => p'.trail ▸ horder)
  cases m with
  | go next => exact h
  | halt halt => exact h.orderly
  | mark label next =>
    simp only [Move.run, ensures_bind, ensures_pure]
    refine (stageMarker_spec h.stands label).mono (fun _ s₁ p₁ => ?_)
      (fun halt s₁ h₁ => stays h₁.2 rfl)
    exact h.follow p₁ (Nat.le_refl _) (by simp [Entry.isText]) rfl
  | tell text next =>
    obtain rfl := htell text next rfl
    simp only [Move.run, ensures_bind, ensures_pure]
    exact say_pauses h
  | replan plan next =>
    have p₀ : Stands env s.trail { s.ledger with plan := plan } (.start s.assembly.minted)
        { s with plan := plan } := h.stands.withLedger rfl rfl rfl rfl rfl
    simp only [Move.run, ensures_bind, ensures_modify, ensures_pure]
    refine (showPlan_spec p₀).mono (fun _ s₁ p₁ => ?_) (fun halt s₁ h₁ => stays h₁.2 rfl)
    exact h.follow p₁ (Nat.le_refl _) (by simp [Entry.isText]) rfl
  | ask wanted keep next denied =>
    simp only [Move.run, ensures_bind]
    refine (callModel_pauses h wanted).imp (fun answer s₁ h₁ => ?_)
    cases answer with
    | none => exact h₁
    | some turn =>
      simp only [ensures_bind, ensures_pure]
      refine (commit_spec h₁.stands turn (keep turn.calls)).mono (fun _ s₂ p₂ => ?_)
        (fun _ _ h => h.elim)
      have h₂ : Paused env false s₂ := .of_stands p₂ h₁.answering_eq h₁.orderly
      exact dispatchAll_pauses h₂ _

/-! ## The whole run -/

section Whole

variable {engine : Engine} {turn : UserTurn} {world : World} {fuel : Nat}

theorem advance_pauses (h : Paused env false s) (rounds : Nat) (c : Station) :
    Ensures (advance env rounds c) s (fun _ s' => Paused env false s')
      (fun _ s' => Orderly env s') := by
  simp only [advance, ensures_bind, ensures_get]
  refine move_pauses h (fun text next htell => ?_)
  have hdecides := decides env rounds s c
  rw [htell] at hdecides
  cases hdecides
  rfl

/-- The stages of a run leave its trail in order. -/
theorem stages_orderly (engine : Engine) (turn : UserTurn) (world : World) (fuel : Nat) :
    Orderly (engine.start turn world).1 (afterStages engine turn world fuel) := by
  refine stages_hand_on (P := Paused (engine.start turn world).1 false) ?_
    (fun c s _ h => advance_pauses h _ c) (fun s h => h.orderly)
  exact .of_stands start_stands rfl (fun _ => .nil)

/-- No minted name was taken back, and one was minted if there is a text among some events. -/
def RaisesFor (n : Nat) (es : List Event) (s : State) : Prop :=
  n ≤ s.assembly.minted ∧ ∀ block text, .content block text ∈ es → n < s.assembly.minted

theorem apologise_raises (p : Stands env t l a s) (message : String) (reason : FinishReason) :
    Ensures (apologise env message reason) s (fun _ s' => s'.assembly.minted = a.minted + 1)
      (fun _ s' => s'.assembly.minted = a.minted + 1) := by
  simp only [apologise, ensures_bind]
  refine (say_spec p message).mono (fun _ s₁ p₁ => ?_) (fun halt s₁ h => ?_)
  · exact (finish_spec p₁ reason).mono (fun _ s₂ h₂ => h₂.minted) (fun halt s₂ h₂ => h₂.2.minted)
  · exact congrArg Assembly.minted h.2.assembly

theorem closing_raises (p : Stands env t l a s) (r : Except Halt Unit) :
    Ensures (closing env r) s
      (fun _ s' => RaisesFor a.minted (endingOf (IdKind.block.mint env.supply a.minted) r) s')
      (fun _ s' => RaisesFor a.minted (endingOf (IdKind.block.mint env.supply a.minted) r) s') := by
  have same {es : List Event} {s' : State} (h : s'.assembly.minted = a.minted)
      (hes : ∀ block text, .content block text ∉ es) : RaisesFor a.minted es s' :=
    ⟨Nat.le_of_eq h.symm, fun block text hmem => absurd hmem (hes block text)⟩
  have one {es : List Event} {s' : State} (h : s'.assembly.minted = a.minted + 1) :
      RaisesFor a.minted es s' := ⟨by omega, fun _ _ _ => by omega⟩
  cases r with
  | ok _ =>
    exact (finish_spec p .stop).mono (fun _ s₁ h => same h.minted (by simp [endingOf]))
      (fun halt s₁ h => same h.2.minted (by simp [endingOf]))
  | error halt =>
    rw [closing_error, endingOf]
    cases apology? halt with
    | none =>
      have hsame : RaisesFor a.minted [] s :=
        same (congrArg Assembly.minted p.assembly) (by simp)
      simp only [ensures_ite, ensures_throw, ensures_pure]
      exact ⟨fun _ => hsame, fun _ => hsame⟩
    | some words =>
      exact (apologise_raises p words.1 words.2).mono (fun _ _ h => one h) (fun _ _ h => one h)

theorem final_raises (p : Stands (engine.start turn world).1 t l a
      (afterStages engine turn world fuel)) :
    RaisesFor a.minted (endingOf (IdKind.block.mint engine.supply a.minted)
      (engine.run turn world fuel).stages) (engine.run turn world fuel).final := by
  rcases hclosing : (closing (engine.start turn world).1 (engine.run turn world fuel).stages).run
    (afterStages engine turn world fuel) with ⟨closed, s'⟩
  have hraises : RaisesFor a.minted (endingOf (IdKind.block.mint engine.supply a.minted)
      (engine.run turn world fuel).stages) s' := by
    have hspec := (closing_raises p (engine.run turn world fuel).stages).of_run hclosing
    cases closed with
    | ok _ => exact hspec
    | error halt => exact hspec
  have hfinal : (engine.run turn world fuel).final = clientTurn (engine.start turn world).1 s' := by
    rw [show s' = ((closing (engine.start turn world).1 (engine.run turn world fuel).stages).run
      (afterStages engine turn world fuel)).2 by rw [hclosing]]
    rfl
  have hcalm : Calm (engine.start turn world).1 s' (engine.run turn world fuel).final :=
    hfinal ▸ Calm.refl.after_clientTurn
  unfold RaisesFor
  rw [hcalm.assembly]
  exact hraises

/-- The last events of a run have at most one text, and that is the first of them. -/
theorem endingOf_text {block block' : String} {r : Except Halt Unit} {u v : List Event} {e : Event}
    (h : u ++ e :: v = endingOf block r) (hb : e.block? = some block') :
    u = [] ∧ ∃ message, e = .content block message ∧
      (message = frontendTimeoutMessage ∨ message = genericFailureMessage) := by
  have hfirst : e ∈ endingOf block r := by
    rw [← h]
    simp
  rcases mem_endingOf hfirst with ⟨message, rfl⟩ | ⟨reason, rfl⟩
  · cases r with
    | ok _ => simp [endingOf] at hfirst
    | error halt =>
      cases happ : apology? halt with
      | none => simp [endingOf, happ] at hfirst
      | some words =>
        simp only [endingOf, happ] at h hfirst
        obtain rfl : message = words.1 := by simpa using hfirst
        cases u with
        | nil =>
          cases h
          exact ⟨rfl, _, rfl, apology?_message happ⟩
        | cons first u =>
          -- What comes second is the `finish`.
          cases u with
          | nil => cases h
          | cons second u => cases u <;> cases h
  · cases hb

/-- The stream of the model, by the number of its request, from which a text comes that is sent
after some entries. There is none outside of the model calls and after the stages. -/
def sourceOf (stages before : List Entry) : Option Nat :=
  if answering false before && before.length < stages.length then some (requestsOf before).length
  else none

theorem text_of_block {e : Event} {block : String} (h : e.block? = some block) :
    (Entry.event e).isText = true := by
  cases e with
  | content => rfl
  | reasoning => rfl
  | _ => cases h

theorem texts_quiet {u : List Entry} (hu : ∀ x ∈ u, x.isText = true) (before : Bool) :
    answering before u = before ∧ requestsOf u = [] := by
  induction u with
  | nil => exact ⟨rfl, rfl⟩
  | cons x u ih =>
    obtain ⟨hanswering, hrequests⟩ := ih fun y hy => hu y (List.mem_cons_of_mem x hy)
    cases x with
    | event e => exact ⟨hanswering, hrequests⟩
    | _ => cases hu _ List.mem_cons_self

/-- A text comes from the stream that a text before it comes from if only texts stand between. -/
theorem sourceOf_texts {stages before u : List Entry} (hu : ∀ x ∈ u, x.isText = true)
    (hlen : (before ++ u).length < stages.length) :
    sourceOf stages (before ++ u) = sourceOf stages before := by
  obtain ⟨hanswering, hrequests⟩ := texts_quiet hu (answering false before)
  have hshort : before.length < stages.length := by
    rw [List.length_append] at hlen
    omega
  unfold sourceOf
  rw [answering_append, hanswering, requestsOf_append, hrequests, List.append_nil,
    decide_eq_true hlen, decide_eq_true hshort]

/-- A whole trail: that of the stages, in order, and the last events of the run. If there is a text
among them, it is the first of them and in a block of its own. -/
structure WholeTrail (model : Model) (stages : List Entry) (done : List Event)
    (whole : List Entry) : Prop where
  whole_eq : whole = stages ++ done.map .event
  inOrder : InOrder model stages
  apology : ∀ u g v block, done = u ++ g :: v → g.block? = some block → u = [] ∧
    ∃ message, g = .content block message ∧
      (message = frontendTimeoutMessage ∨ message = genericFailureMessage)
  apart : ∀ g ∈ done, ∀ block, g.block? = some block →
    ∀ e, .event e ∈ stages → e.block? ≠ some block

namespace WholeTrail

variable {model : Model} {stages before between after whole : List Entry} {done : List Event}
  {e f : Event} {block : String}

/-- Where a text of the trail stands: in the stages, or right after them as an apology. -/
theorem text_cases (h : WholeTrail model stages done whole)
    (hsplit : whole = before ++ .event e :: after) (he : e.block? = some block) :
    (before.length < stages.length ∧ ∃ rest, stages = before ++ .event e :: rest) ∨
      before = stages ∧ e ∈ done ∧ ∃ message, e = .content block message ∧
        (message = frontendTimeoutMessage ∨ message = genericFailureMessage) := by
  rw [h.whole_eq] at hsplit
  rcases split_in_row hsplit with ⟨rest, hstages, -⟩ | ⟨w, hbefore, hw⟩
  · exact Or.inl ⟨by simp [hstages], rest, hstages⟩
  · obtain ⟨u, last, rfl, rfl, hlast⟩ := List.map_eq_append_iff.mp hw
    obtain ⟨g, v, rfl, hg, -⟩ := List.map_eq_cons_iff.mp hlast
    cases hg
    obtain ⟨rfl, happology⟩ := h.apology u e v block rfl he
    exact Or.inr ⟨by simpa using hbefore, List.mem_cons_self, happology⟩

/-- Two texts of one block are of one voice and one stream, with nothing but texts between. -/
theorem tied (h : WholeTrail model stages done whole)
    (hsplit : whole = before ++ .event e :: between ++ .event f :: after)
    (he : e.block? = some block) (hf : f.block? = some block) :
    e.typeName = f.typeName ∧ (∀ x ∈ between, x.isText = true) ∧
      ∃ n, sourceOf stages before = some n ∧
        sourceOf stages (before ++ .event e :: between) = some n := by
  rcases h.text_cases hsplit hf with ⟨hlen, rest, hstages⟩ | ⟨hbefore, hdone, -⟩
  · obtain ⟨htype, hbetween, hanswering⟩ :=
      h.inOrder.tied before e between f rest block hstages he hf
    have hsome : sourceOf stages before = some (requestsOf before).length := by
      have hshort : before.length < stages.length := by
        rw [List.length_append] at hlen
        omega
      simp only [sourceOf, hanswering, decide_eq_true hshort, Bool.and_true, if_true]
    have htexts : ∀ x ∈ Entry.event e :: between, x.isText = true := by
      intro x hx
      rcases List.mem_cons.mp hx with rfl | hx
      · exact text_of_block he
      · exact hbetween x hx
    exact ⟨htype, hbetween, _, hsome, (sourceOf_texts htexts hlen).trans hsome⟩
  · -- The block of an apology has no text in the stages.
    have hmem : Entry.event e ∈ stages := by
      rw [← hbefore]
      simp
    exact absurd he (h.apart f hdone block hf e hmem)

theorem heard (h : WholeTrail model stages done whole)
    (hsplit : whole = before ++ .event e :: after) (he : e.block? = some block) {n : Nat}
    (hsource : sourceOf stages before = some n) : Heard model (requestsOf before) e := by
  unfold sourceOf at hsource
  split at hsource
  · rename_i hin
    obtain ⟨hanswering, hlen⟩ := Bool.and_eq_true_iff.mp hin
    rcases h.text_cases hsplit he with ⟨-, rest, hstages⟩ | ⟨rfl, -⟩
    · exact h.inOrder.heard before e rest block hstages he hanswering
    · exact absurd (of_decide_eq_true hlen) (Nat.lt_irrefl _)
  · cases hsource

/-- What comes from no stream is the engine's. -/
theorem own (h : WholeTrail model stages done whole)
    (hsplit : whole = before ++ .event e :: after) (he : e.block? = some block)
    (hnone : sourceOf stages before = none) :
    ∃ message ∈ [budgetExhaustedMessage, frontendTimeoutMessage, genericFailureMessage],
      e = .content block message := by
  rcases h.text_cases hsplit he with ⟨hlen, rest, hstages⟩ | ⟨-, -, message, hmessage, happ⟩
  · have hanswering : answering false before = false := by
      simpa [sourceOf, hlen] using hnone
    exact ⟨_, List.mem_cons_self, h.inOrder.own before e rest block hstages he hanswering⟩
  · refine ⟨message, ?_, hmessage⟩
    rcases happ with rfl | rfl
    · simp
    · simp

/-- It shares its block with no other event. -/
theorem alone (h : WholeTrail model stages done whole)
    (hsplit : whole = before ++ .event e :: after) (he : e.block? = some block)
    (hnone : sourceOf stages before = none) :
    ∀ f, .event f ∈ before ++ after → f.block? ≠ some block := by
  intro f hf hfb
  rcases List.mem_append.mp hf with hf | hf
  · obtain ⟨first, between, rfl⟩ := List.append_of_mem hf
    obtain ⟨-, -, n, -, hsome⟩ := h.tied hsplit hfb he
    cases hnone.symm.trans hsome
  · obtain ⟨between, rest, rfl⟩ := List.append_of_mem hf
    have hsplit' : whole = before ++ .event e :: between ++ .event f :: rest := by
      simpa using hsplit
    obtain ⟨-, -, n, hsome, -⟩ := h.tied hsplit' he hfb
    cases hnone.symm.trans hsome

end WholeTrail

/-- Every run leaves such a trail, if no name is minted twice. -/
theorem run_wholeTrail
    (hids : Set.InjOn engine.supply
      (Set.Iio (engine.run turn world fuel).final.assembly.minted)) :
    ∃ done, WholeTrail engine.model (afterStages engine turn world fuel).trail done
      (engine.run turn world fuel).final.trail := by
  obtain ⟨t, l, a, hran⟩ := ran engine turn world fuel
  obtain ⟨hle, hlt⟩ := final_raises hran.stands
  have hminted : (afterStages engine turn world fuel).assembly.minted = a.minted :=
    congrArg Assembly.minted hran.stands.assembly
  obtain ⟨done, hdone, htrail⟩ : ∃ done,
      done <+: endingOf (IdKind.block.mint engine.supply a.minted)
        (engine.run turn world fuel).stages ∧
      (engine.run turn world fuel).final.trail = t ++ done.map .event := by
    cases hran.closed with
    | all texts hended _ => exact ⟨_, List.prefix_rfl, hended.trail⟩
    | part texts hdone hended _ => exact ⟨_, hdone, hended.trail⟩
  have happology (u : List Event) (g : Event) (v : List Event) (block : String)
      (hsplit : done = u ++ g :: v) (hg : g.block? = some block) : u = [] ∧ ∃ message,
        g = .content (IdKind.block.mint engine.supply a.minted) message ∧
        (message = frontendTimeoutMessage ∨ message = genericFailureMessage) := by
    obtain ⟨w, hw⟩ := hdone
    rw [hsplit, List.append_assoc, List.cons_append] at hw
    exact endingOf_text hw hg
  refine ⟨done, ?_, ?_, fun u g v block hsplit hg => ?_, fun g hgd block hg e he => ?_⟩
  · rw [hran.stands.trail]
    exact htrail
  · refine stages_orderly engine turn world fuel (hids.mono (Set.Iio_subset_Iio ?_))
    rw [hminted]
    exact hle
  · obtain ⟨hu, message, rfl, happ⟩ := happology u g v block hsplit hg
    cases hg
    exact ⟨hu, message, rfl, happ⟩
  · -- The block of an apology is minted when all stages are over.
    obtain ⟨u, v, hsplit⟩ := List.append_of_mem hgd
    obtain ⟨-, message, rfl, -⟩ := happology u g v block hsplit hg
    have hbelow : Set.InjOn engine.supply (Set.Iio (a.minted + 1)) :=
      hids.mono (Set.Iio_subset_Iio (hlt _ _ (hdone.subset hgd)))
    intro heb
    have hold : MintedBelow engine.supply a.minted block :=
      hminted ▸ hran.stands.ready.minted_of_mem he heb
    exact minted_ne hbelow hold (Option.some.inj hg).symm

/-- If no name is minted twice, then texts of one block are of one kind and from one stream of the
model, and nothing but texts stands between them. A text from a stream is a piece of what the model
streamed for this request. What comes from none the engine says itself, that the budget is exhausted
or that something went wrong or took too long, and it shares its block with no other event. -/
theorem blocks_hold_together (engine : Engine) (turn : UserTurn) (world : World) (fuel : Nat)
    (hids : Set.InjOn engine.supply
      (Set.Iio (engine.run turn world fuel).final.assembly.minted)) :
    let o := engine.run turn world fuel
    let source := sourceOf (afterStages engine turn world fuel).trail
    (∀ before e between f after block,
      o.final.trail = before ++ .event e :: between ++ .event f :: after →
      e.block? = some block → f.block? = some block →
      e.typeName = f.typeName ∧ (∀ x ∈ between, x.isText = true) ∧
        ∃ n, source before = some n ∧ source (before ++ .event e :: between) = some n) ∧
    (∀ before e after block n, o.final.trail = before ++ .event e :: after →
      e.block? = some block → source before = some n →
      Heard engine.model (requestsOf before) e) ∧
    ∀ before e after block, o.final.trail = before ++ .event e :: after →
      e.block? = some block → source before = none →
      (∃ message ∈ [budgetExhaustedMessage, frontendTimeoutMessage, genericFailureMessage],
        e = .content block message) ∧
      ∀ f, .event f ∈ before ++ after → f.block? ≠ some block := by
  intro o source
  obtain ⟨done, h⟩ := run_wholeTrail hids
  refine ⟨?_, ?_, ?_⟩
  · intro before e between f after block hsplit he hf
    exact h.tied hsplit he hf
  · intro before e after block n hsplit he hsource
    exact h.heard hsplit he hsource
  · intro before e after block hsplit he hnone
    exact ⟨h.own hsplit he hnone, h.alone hsplit he hnone⟩

end Whole

/-- An answer that breaks off after two pieces of a text. -/
def brokenText : Reply :=
  Script.ofChunks [Chunk.ofContent "Hel", Chunk.ofContent "lo"]
    (.failed (.streamInterrupted "reset"))

/-- The two pieces are of one block and of one stream, from which they were heard, and the apology
behind them stands alone. -/
theorem broken_text_is_one_block :
    let engine := rehearsal [brokenText]
    let o := engine.run (firstTurn .react) (.new 1) 0
    let source := sourceOf (afterStages engine (firstTurn .react) (.new 1) 0).trail
    let before := o.final.trail.take 2
    let block := IdKind.block.mint (Uuid.timed 0) 2
    ∃ own, o.final.trail = before ++ [.event (.content block "Hel"), .event (.content block "lo"),
        .event (.content own genericFailureMessage), .event (.finish .stop)] ∧
      (∃ n, source before = some n ∧ source (before ++ [.event (.content block "Hel")]) = some n) ∧
      Heard engine.model (requestsOf before) (.content block "Hel") ∧
      own ≠ block := by
  intro engine o source before block
  have hminted : o.final.assembly.minted = 4 := by decide +kernel
  have hdistinct : ∀ i < 4, ∀ j < 4, Uuid.timed 0 i = Uuid.timed 0 j → i = j := by decide
  have htrail : o.final.trail = before ++ [.event (.content block "Hel"),
      .event (.content block "lo"),
      .event (.content (IdKind.block.mint (Uuid.timed 0) 3) genericFailureMessage),
      .event (.finish .stop)] := by
    decide +kernel
  have hown : source (before ++ [.event (.content block "Hel"),
      .event (.content block "lo")]) = none := by
    decide +kernel
  obtain ⟨htied, hheard, halone⟩ := blocks_hold_together engine (firstTurn .react) (.new 1) 0 (by
    rw [hminted]
    exact fun i hi j hj hij => hdistinct i hi j hj hij)
  clear_value before block
  obtain ⟨-, -, n, hsource, hsame⟩ := htied before (.content block "Hel") [] (.content block "lo") _
    block (by simpa using htrail) rfl rfl
  refine ⟨_, htrail, ⟨n, hsource, hsame⟩, ?_, ?_⟩
  · exact hheard before (.content block "Hel") _ block n htrail rfl hsource
  · obtain ⟨-, hothers⟩ := halone (before ++ [.event (.content block "Hel"),
      .event (.content block "lo")]) (.content _ genericFailureMessage) [.event (.finish .stop)] _
      (by simpa using htrail) rfl hown
    intro hsame
    have hmem : Entry.event (.content block "Hel") ∈ before ++ [.event (.content block "Hel"),
        .event (.content block "lo")] ++ [.event (.finish .stop)] :=
      List.mem_append_left _ (List.mem_append_right _ List.mem_cons_self)
    exact hothers (.content block "Hel") hmem (congrArg some hsame.symm)

end AgentRun.Run
