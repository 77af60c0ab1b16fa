import AgentRun.Proofs.Keeping

/-!
# What the answer to a call keeps

A call is answered in parts: it is taken up, its tool is used, and its result goes out with the
plan. Each part is followed here once, for any property of states. What a property has to say for
itself is how it takes the entries of the call (`Works`, and the hypotheses of
`Frame.complete_kept`), and that it bears what is changed beside them.
-/

namespace AgentRun.Run

/-- An entry is made when a call has a tool used, as the kind of the tool asks for. -/
inductive Entry.WorksFor (env : Env) (call : Call) (tool : Tool) : Entry → Prop
  | invoked (args : Json) (hkind : tool.kind = .backend) : WorksFor env call tool
      (.invocation ⟨tool.definition.name, args, ⟨env.runId, env.agent.id, call.id⟩⟩)
  | awaited (hkind : tool.kind = .frontend) :
      WorksFor env call tool (.waitBegan ⟨env.runId, call.id⟩)
  | echoed (args : Json) (hkind : tool.kind ≠ .backend) :
      WorksFor env call tool (.event (echo call args tool.kind))

/-- A property that holds until a tool is used for a call, and another one from then on, which is no
weaker. -/
structure Works (env : Env) (call : Call) (tool : Tool) (K L : State → Prop) : Prop where
  before : Frame env K
  after : Frame env L
  back : ∀ {s}, L s → K s
  putBefore : ∀ {s} r, K s → K (s.withRendezvous r)
  putAfter : ∀ {s} r, L s → L (s.withRendezvous r)
  use : ∀ {s e}, K s → e.WorksFor env call tool → L (s.note e)
  ended : ∀ {s}, L s → L (s.note (.waitEnded ⟨env.runId, call.id⟩))

variable {env : Env} {call : Call} {tool : Tool} {K L : State → Prop} {s : State}

/-! ## Using a tool -/

namespace Works

theorem kept_back (w : Works env call tool K L) (h : Kept L s) : Kept K s := ⟨w.back h.1, h.2⟩

theorem kept_put {P : State → Prop} {r : Rendezvous} (hput : P s → P (s.withRendezvous r))
    (h : Kept P s) : Kept P (s.withRendezvous r) := ⟨hput h.1, h.2.congr rfl rfl⟩

theorem echo_kept (w : Works env call tool K L) (args : Json) (hkind : tool.kind ≠ .backend)
    (h : Kept K s) :
    Ensures (emit env (echo call args tool.kind)) s (fun _ s' => Kept L s')
      (fun halt s' => Gone halt s' ∧ Kept K s') :=
  w.before.emit_kept (fun hs => w.use hs (.echoed args hkind)) rfl h

theorem released_kept (w : Works env call tool K L) {handle : Handle}
    (hkey : handle.key = ⟨env.runId, call.id⟩) (h : Kept L s) : Kept L (s.released handle) := by
  have hput : Kept L (s.withRendezvous (s.world.rendezvous.release handle)) :=
    kept_put (w.putAfter _) h
  refine ⟨?_, hput.2.note _⟩
  unfold State.released
  rw [hkey]
  exact w.ended hput.1

/-- A wait begins and ends, whatever comes of it. -/
theorem awaitClient_kept (w : Works env call tool K L) (args : Json)
    (hkind : tool.kind = .frontend) (h : Kept K s) :
    Ensures (awaitClient env call args) s (fun _ s' => Kept L s') (fun _ s' => Kept K s') := by
  refine ensures_awaitClient (R := fun _ s₁ => Kept L s₁) (fun e r _ => kept_put (w.putBefore r) h)
    (fun handle r hkey _ => ?_) (fun handle s₁ result s₂ hkey h₁ hwait => ?_)
  · have hput : Kept K (s.withRendezvous r) := kept_put (w.putBefore r) h
    have began : Kept L ((s.withRendezvous r).note (.waitBegan handle.key)) :=
      ⟨hkey ▸ w.use hput.1 (.awaited hkind), hput.2.note _⟩
    have echoes {s' : State} (h' : L s') :
        L (s'.note (.event (echo call args .frontend))) := by
      rw [← hkind]
      exact w.use (w.back h') (.echoed args (by rw [hkind]; decide))
    exact (w.after.emit_kept echoes rfl began).mono (fun _ _ h₁ => h₁)
      (fun _ _ h₁ => w.kept_back (w.released_kept hkey h₁.2))
  · have hwaited : Kept L (awaitSubmission env handle (s₁.now + env.frontendTimeoutMs) s₁).2 :=
      w.after.kept_calm h₁ (Calm.refl.after_awaitSubmission _ _)
    rw [hwait] at hwaited
    have hover := w.released_kept hkey hwaited
    cases result with
    | payload value => exact hover
    | timeout => exact w.kept_back hover
    | gone => exact w.kept_back hover

/-- Once a call is worked off its tool was used, or the result says why it was not. -/
theorem workOff_kept (w : Works env call tool K L) (args : Json) (h : Kept K s) :
    Ensures (workOff env tool call args) s
      (fun result s' => Kept K s' ∧ (Kept L s' ∨ result = failureResult "tool worker pool closed" ∨
        ∃ scope : Scope, result = failureResult ("tool " ++ scope.timeoutError.message)))
      (fun _ s' => Kept K s') := by
  have used {s' : State} {result : Json} (h' : Kept L s') : Kept K s' ∧ (Kept L s' ∨
      result = failureResult "tool worker pool closed" ∨
        ∃ scope : Scope, result = failureResult ("tool " ++ scope.timeoutError.message)) :=
    ⟨w.kept_back h', Or.inl h'⟩
  refine ensures_workOff (fun hkind => ?_) (fun hkind => ?_) (fun hkind => ?_)
  · exact (w.awaitClient_kept args hkind h).imp fun _ _ h₁ => used h₁
  · have echoed := w.echo_kept args (by rw [hkind]; decide) h
    rw [hkind] at echoed
    exact echoed.mono (fun _ _ h₁ => used h₁) (fun _ _ h₁ => h₁.2)
  · exact (w.before.runTool_kept w.after w.back args (fun hs => w.use hs (.invoked args hkind))
      h).mono (fun _ _ h₁ => h₁) (fun _ _ h₁ => h₁.2)

end Works

namespace Frame

/-! ## The result -/

/-- The result of a call goes out, which may bring about another property, and then the plan if it
was changed. -/
theorem complete_kept (f : Frame env K) (f' : Frame env L) {result : Json}
    {change : Option PlanChange} (args : Json)
    (hresult : ∀ {s}, K s → L (s.note (.event (.toolResult call.id result))))
    (hplan : ∀ {s plan}, L s → L (s.note (.event (.planUpdate plan)))) (h : Kept K s) :
    Ensures (complete env call args result change) s (fun _ s' => Kept L s')
      (fun halt s' => Gone halt s' ∧ (Kept K s' ∨ Kept L s')) := by
  have hfiled : Kept K (s.filed call args result) :=
    f.kept_beside h ⟨rfl, rfl, rfl, rfl, rfl, rfl⟩ rfl
  refine ensures_complete (R := Kept L) ?_ (fun _ s₁ h₁ => h₁) (fun _ s₁ h₁ => ?_)
  · exact (f.emit_kept hresult rfl hfiled).mono (fun _ _ h₁ => h₁)
      (fun _ _ h₁ => ⟨h₁.1, Or.inl h₁.2⟩)
  · simp only [showPlan, ensures_bind, ensures_get]
    exact (f'.emit_kept hplan rfl h₁).mono (fun _ _ h₂ => h₂)
      (fun _ _ h₂ => ⟨h₂.1, Or.inr h₂.2⟩)

/-! ## The whole call -/

/-- A call that was taken up is answered at once or after it was worked off. It is answered at once
if the budget denies it or if it is none for the client. -/
theorem dispatch_kept {Q : Answer → State → Prop} {B : Halt → State → Prop} (f : Frame env L)
    (hcharged : ∀ {s} spending, L s → L { s with spending := spending })
    (hanswered : ∀ {s} args result change, IsDenial result ∨ ¬ env.AsksClient call →
      Kept L s →
      Ensures (complete env call args result change) s Q B)
    (hworked : ∀ {s tool} args, takesSlot call = true → env.tools.get? call.name = some tool →
      Kept L s →
      Ensures (workOff env tool call args) s
        (fun result s' => Ensures (complete env call args result none) s' Q B) B)
    (h : Kept L (s.note (.dispatch call))) : Ensures (dispatch env call) s Q B := by
  have free (hslot : takesSlot call = false) : ¬ env.AsksClient call := by
    rintro ⟨htakes, -⟩
    rw [hslot] at htakes
    cases htakes
  refine ensures_dispatch
    (fun e hargs => hanswered _ _ _ (Or.inr (free (takesSlot_of_malformed hargs))) h)
    (fun raw tool _ htool => ?_) (fun raw hargs htool => ?_)
  · have hfree := free (takesSlot_of_planTool htool)
    refine ensures_changePlan (fun change plan _ => hanswered _ _ _ (Or.inr hfree) ?_)
      (fun _ _ => hanswered _ _ _ (Or.inr hfree) h)
    exact f.kept_beside h ⟨rfl, rfl, rfl, rfl, rfl, rfl⟩ rfl
  · refine ensures_admitTool (fun _ => ?_) (fun _ => hanswered _ _ _ (Or.inl ⟨_, rfl⟩) h)
    have hcharge : Kept L { s.note (.dispatch call) with
        spending := { s.spending with toolCalls := s.spending.toolCalls + 1 } } :=
      ⟨hcharged _ h.1, h.2.congr rfl rfl⟩
    cases hget : env.tools.get? call.name with
    | none =>
      refine hanswered _ _ _ (Or.inr ?_) hcharge
      rintro ⟨-, tool, hsome, -⟩
      rw [hget] at hsome
      cases hsome
    | some tool => exact hworked _ (takesSlot_of_ok hargs htool) hget hcharge

end Frame

end AgentRun.Run
