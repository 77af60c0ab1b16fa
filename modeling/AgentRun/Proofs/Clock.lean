import AgentRun.Proofs.Answering
import AgentRun.Proofs.Moves

/-!
# The clock of a run

The clock is not turned back by anything that a run does. So once the time of a run is up it stays
up, wherever the run comes afterwards.
-/

namespace AgentRun.Run

/-- It is not before a time. -/
def NotBefore (time : Nat) (s : State) : Prop := time ≤ s.now

variable {env : Env} {time : Nat} {s : State}

theorem NotBefore.noting (env : Env) (time : Nat) : Noting env (NotBefore time) fun _ => True where
  calm := fun h c => Nat.le_trans h c.later
  beside := fun h hb => Nat.le_trans h (Nat.le_of_eq hb.now.symm)
  note := fun h _ => h

section Dispatch

variable {call : Call}

/-- How a call may break off. -/
abbrev BrokeLater (time : Nat) : Halt → State → Prop :=
  Broke (NotBefore time) (NotBefore time) fun _ => True

theorem broke_later {halt : Halt} (h : Kept (NotBefore time) s) : BrokeLater time halt s :=
  ⟨h.2, Or.inl h.1, fun _ => trivial⟩

theorem NotBefore.works (env : Env) (time : Nat) (call : Call) (tool : Tool) :
    Works env call tool (NotBefore time) (NotBefore time) where
  before := (NotBefore.noting env time).toFrame
  after := (NotBefore.noting env time).toFrame
  back := fun h => h
  putBefore := fun _ h => h
  putAfter := fun _ h => h
  use := fun h _ => h
  ended := fun h => h

theorem dispatch_notBefore (call : Call) (h : Kept (NotBefore time) s) :
    Ensures (dispatch env call) s (fun _ s' => Kept (NotBefore time) s') (BrokeLater time) := by
  have hframe := (NotBefore.noting env time).toFrame
  have answers {s' : State} (args result : Json) (change : Option PlanChange)
      (h' : Kept (NotBefore time) s') : Ensures (complete env call args result change) s'
        (fun _ s' => Kept (NotBefore time) s') (BrokeLater time) :=
    (hframe.complete_kept hframe args (fun hs => hs) (fun hs => hs) h').mono (fun _ _ h₁ => h₁)
      (fun _ _ h₁ => broke_later (h₁.2.elim id id))
  refine hframe.dispatch_kept (fun _ hs => hs)
    (fun args result change _ => answers args result change) (fun args _ _ h' => ?_)
    ((NotBefore.noting env time).kept_note h trivial)
  exact ((NotBefore.works env time call _).workOff_kept args h').mono
    (fun _ _ h₁ => answers _ _ _ h₁.1) (fun _ _ h₁ => broke_later h₁)

theorem notBefore_keeps (env : Env) (time : Nat) :
    Keeps env (NotBefore time) (NotBefore time) (NotBefore time) (NotBefore time) fun _ => True :=
  .uniform ⟨(NotBefore.noting env time).toFrame, fun h _ => h⟩ dispatch_notBefore
    fun h _ c => (NotBefore.noting env time).calm h c

end Dispatch

/-! ## Moves -/

section Moves

variable {K S P J : State → Prop} {T : Halt → Prop} {rounds : Nat} {s' : State} {c c' : Station}

theorem Keeps.move_kept (k : Keeps env K S P J T) (m : Move) (h : Kept K s)
    (hhalt : ∀ halt, m = .halt halt → halt.isOfCall = false) :
    Ensures (m.run env) s (fun _ s' => Kept K s') (Broke P J T) := by
  cases m with
  | go next => exact h
  | ask wanted keep next denied =>
    simp only [Move.run, ensures_bind]
    refine (k.callModel_kept wanted h).imp fun answer s₁ h₁ => ?_
    cases answer with
    | none => exact h₁
    | some turn =>
      simp only [ensures_bind, ensures_pure]
      refine (k.commit_kept _ h₁).imp fun _ s₂ h₂ => ?_
      exact k.dispatchAll_kept _ h₂
  | mark label next =>
    simp only [Move.run, ensures_bind, ensures_pure]
    exact k.stageMarker_kept label h
  | replan plan next =>
    simp only [Move.run, ensures_bind, ensures_modify, ensures_pure]
    exact k.showPlan_kept h
  | tell text next =>
    simp only [Move.run, ensures_bind, ensures_pure]
    exact k.say_kept text h
  | halt halt => exact k.stopped h (hhalt halt rfl)

/-- Only a lack of fuel halts a run between its moves. -/
theorem halt_ofCall {m : Move} (hd : Decides env rounds s c m) :
    ∀ halt, m = .halt halt → halt.isOfCall = false := by
  rintro halt rfl
  cases hd with
  | noFuel => rfl

theorem Keeps.passes_kept (k : Keeps env K S P J T) (h : Kept K s)
    (hpasses : Passes env rounds (c, s) (c', s')) : Kept K s' :=
  handed_on (I := fun _ s => Kept K s) hpasses h fun p _ _ hp hadv =>
    (k.move_kept _ hp (halt_ofCall (decides env rounds p.2 p.1))).of_run hadv

end Moves

section Runs

variable {engine : Engine} {turn : UserTurn} {world : World} {fuel : Nat} {c c' : Station}
  {s' : State}

theorem Visits.kept {K S P J : State → Prop} {T : Halt → Prop}
    (k : Keeps (engine.start turn world).1 K S P J T)
    (h : K (startState engine turn world (world.minted + 1)))
    (hvisits : Visits engine turn world fuel c s) : Kept K s :=
  k.passes_kept (k.between.kept_calm ⟨h, startState_steady _⟩ start_calm) hvisits

theorem Visits.steady (h : Visits engine turn world fuel c s) : s.Steady :=
  (h.kept (notBefore_keeps _ 0) (Nat.zero_le _)).2

/-- The clock is not turned back on the way from one station to another. -/
theorem Visits.later (h : Visits engine turn world fuel c s)
    (hpasses : Passes (engine.start turn world).1 (runnerOf engine turn).rounds (c, s) (c', s')) :
    s.now ≤ s'.now := by
  have hstart : Kept (NotBefore s.now) s := ⟨Nat.le_refl _, h.steady⟩
  exact ((notBefore_keeps _ s.now).passes_kept hstart hpasses).1

end Runs

end AgentRun.Run
