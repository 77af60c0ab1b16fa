import AgentRun.Proofs.Clock
import AgentRun.Proofs.Exhaustion
import AgentRun.Proofs.ToolBudget

/-!
# What tools are used for

A tool is invoked, its client waited for or its call echoed only while a call is in hand (`InHand`)
that was in the last answer of the model, and only if it is the tool that is registered under the
name of that call (`Warrant`). What was offered when the model was asked is not looked at again when
a call is answered, so a call may have a tool used that its agent does not declare.

While the calls of an answer are answered a run is `Obeying` that answer. No move adds to the trail
what is not warranted, whether it leads on or halts the run, and so the whole run does not.
-/

namespace AgentRun.Run

/-! ## Uses of tools -/

/-- An entry by which a tool is used: it is invoked, its client is waited for or its call is echoed.
The pieces of calls that go out while an answer is put together are no echoes. -/
def Entry.isUse (streaming : Bool) : Entry → Bool
  | .invocation _ => true
  | .waitBegan _ => true
  | .event (.toolCall _) => !streaming
  | _ => false

/-- A call was taken up, and whatever stands behind it serves it. -/
def InHand (call : Call) (t : List Entry) : Prop :=
  ∃ earlier u, t = earlier ++ .dispatch call :: u ∧ ∀ e ∈ u, e.Serves call

/-- A request that does not ask for the final answer went to the model, and its answer is the last
one that there is. -/
structure LastAnswer (request : ModelRequest) (turn : Turn) (t : List Entry) : Prop where
  asked : request ∈ requestsOf t
  answered : (answersOf t).getLast? = some (request, turn)
  notFinal : request.directive ≠ some summaryDirective

/-- What warrants the use of a tool: a call in hand of its name, from the last answer of the
model. -/
structure Warrant (env : Env) (t : List Entry) (call : Call) (tool : Tool) : Prop where
  inHand : InHand call t
  registered : env.tools.get? call.name = some tool
  wanted : ∃ request turn, LastAnswer request turn t ∧ call ∈ turn.calls

/-- An entry is no use of a tool, or a warranted one. -/
def Warranted (env : Env) (before : List Entry) (e : Entry) : Prop :=
  e.isUse (answering false before) = true →
    ∃ call tool, Warrant env before call tool ∧ e.WorksFor env call tool

section Uses

variable {env : Env} {call : Call} {tool : Tool} {t u : List Entry} {e : Entry}
  {request : ModelRequest} {turn : Turn}

theorem InHand.taken (call : Call) (t : List Entry) : InHand call (t ++ [.dispatch call]) :=
  ⟨t, [], rfl, fun _ h => absurd h List.not_mem_nil⟩

theorem InHand.serve (h : InHand call t) (he : e.Serves call) : InHand call (t ++ [e]) := by
  obtain ⟨earlier, u, rfl, hu⟩ := h
  exact ⟨earlier, u ++ [e], by simp, Serving.snoc hu he⟩

theorem LastAnswer.snoc (h : LastAnswer request turn t) (he : e.isOfCall = true) :
    LastAnswer request turn (t ++ [e]) where
  asked := by
    rw [requestsOf_append]
    exact List.mem_append_left _ h.asked
  answered := by
    have hnone : answersOf [e] = [] :=
      answersOf_ofCall fun f hf => List.mem_singleton.mp hf ▸ he
    rw [answersOf_append, hnone, List.append_nil]
    exact h.answered
  notFinal := h.notFinal

theorem Entry.WorksFor.serves (he : e.WorksFor env call tool) : e.Serves call := by
  cases he <;> exact rfl

theorem Warranted.of_unused (h : e.isUse false = false) : Warranted env t e := by
  have hnot (streaming : Bool) : e.isUse streaming = false := by
    cases e with
    | event e =>
      cases e with
      | toolCall => cases h
      | _ => rfl
    | invocation => cases h
    | waitBegan => cases h
    | _ => rfl
  intro huse
  rw [hnot] at huse
  cases huse

end Uses

/-! ## Answering the calls of an answer -/

/-- A run that has used tools only as was warranted answers calls of an answer, and has come to a
place on its trail. -/
structure ObeyingAt (env : Env) (request : ModelRequest) (turn : Turn)
    (place : List Entry → Prop) (s : State) : Prop where
  warranted : Throughout (Warranted env) s.trail
  last : LastAnswer request turn s.trail
  here : place s.trail

/-- A run is between two calls of an answer. -/
abbrev Obeying (env : Env) (request : ModelRequest) (turn : Turn) : State → Prop :=
  ObeyingAt env request turn fun _ => True

/-- A run works on a call of an answer. -/
abbrev Engaged (env : Env) (request : ModelRequest) (turn : Turn) (call : Call) : State → Prop :=
  ObeyingAt env request turn (InHand call)

section Dispatch

variable {env : Env} {request : ModelRequest} {turn : Turn} {place place' : List Entry → Prop}
  {call : Call} {tool : Tool} {s s' : State} {e : Entry}

namespace ObeyingAt

theorem of_trail (h : ObeyingAt env request turn place s) (ht : s'.trail = s.trail) :
    ObeyingAt env request turn place s' := by
  refine ⟨?_, ?_, ?_⟩
  · rw [ht]
    exact h.warranted
  · rw [ht]
    exact h.last
  · rw [ht]
    exact h.here

theorem frame : Frame env (ObeyingAt env request turn place) where
  calm := fun h c => h.of_trail c.trail
  beside := fun h hb => h.of_trail (by rw [State.trail, State.trail, hb.journal])

theorem note (h : ObeyingAt env request turn place s) (hof : e.isOfCall = true)
    (he : Warranted env s.trail e) (hplace : place' (s.trail ++ [e])) :
    ObeyingAt env request turn place' (s.note e) := by
  have hs : e.isSubmission = false := by
    cases e with
    | submission => cases hof
    | _ => rfl
  refine ⟨?_, ?_, ?_⟩
  · rw [trail_note hs]
    exact h.warranted.snoc he
  · rw [trail_note hs]
    exact h.last.snoc hof
  · rw [trail_note hs]
    exact hplace

/-- The tool of the call in hand is used. -/
theorem use (h : Engaged env request turn call s) (hcall : call ∈ turn.calls)
    (htool : env.tools.get? call.name = some tool) (he : e.WorksFor env call tool) :
    Engaged env request turn call (s.note e) :=
  h.note he.serves.ofCall
    (fun _ => ⟨call, tool, ⟨h.here, htool, request, turn, h.last, hcall⟩, he⟩)
    (h.here.serve he.serves)

theorem ended (h : Engaged env request turn call s) :
    Engaged env request turn call (s.note (.waitEnded ⟨env.runId, call.id⟩)) :=
  h.note rfl (.of_unused rfl) (h.here.serve rfl)

theorem works (hcall : call ∈ turn.calls) (htool : env.tools.get? call.name = some tool) :
    Works env call tool (Engaged env request turn call) (Engaged env request turn call) where
  before := frame
  after := frame
  back := fun h => h
  putBefore := fun _ h => h.of_trail rfl
  putAfter := fun _ h => h.of_trail rfl
  use := fun h he => h.use hcall htool he
  ended := fun h => h.ended

end ObeyingAt

/-- What is left where a call halts a run. -/
abbrev BrokeWarranted (env : Env) (_ : Halt) (s : State) : Prop :=
  Throughout (Warranted env) s.trail

theorem dispatch_obeys (hcall : call ∈ turn.calls) (h : Kept (Obeying env request turn) s) :
    Ensures (dispatch env call) s (fun _ s' => Kept (Obeying env request turn) s')
      (BrokeWarranted env) := by
  have answers {s' : State} (args result : Json) (change : Option PlanChange)
      (h' : Kept (Engaged env request turn call) s') :
      Ensures (complete env call args result change) s'
        (fun _ s' => Kept (Obeying env request turn) s') (BrokeWarranted env) :=
    (ObeyingAt.frame.complete_kept ObeyingAt.frame args
      (fun hs => hs.note rfl (.of_unused rfl) trivial)
      (fun hs => hs.note rfl (.of_unused rfl) trivial) h').mono
      (fun _ _ h₁ => h₁) (fun _ _ h₁ => h₁.2.elim (·.1.warranted) (·.1.warranted))
  refine ObeyingAt.frame.dispatch_kept (fun _ hs => hs.of_trail rfl)
    (fun args result change _ => answers args result change) (fun args _ htool h' => ?_)
    ⟨h.1.note rfl (.of_unused rfl) (.taken call _), h.2.note _⟩
  exact ((ObeyingAt.works hcall htool).workOff_kept args h').mono
    (fun _ _ h₁ => answers _ _ _ h₁.1) (fun _ _ h₁ => h₁.1.warranted)

theorem dispatchAll_obeys {calls : List Call} (hcalls : ∀ call ∈ calls, call ∈ turn.calls)
    (h : Kept (Obeying env request turn) s) :
    Ensures (dispatchAll env calls) s (fun _ s' => Kept (Obeying env request turn) s')
      (BrokeWarranted env) := by
  induction calls generalizing s with
  | nil => exact h
  | cons call rest ih =>
    simp only [dispatchAll, ensures_bind]
    refine (dispatch_obeys (hcalls call List.mem_cons_self) h).imp fun _ s₁ h₁ => ?_
    exact ih (fun c hc => hcalls c (List.mem_cons_of_mem _ hc)) h₁

end Dispatch

/-! ## The moves of a run -/

section Moves

variable {env : Env} {rounds : Nat} {t u w : List Entry} {s s' : State} {c : Station} {m : Move}
  {request : ModelRequest} {turn : Turn} {wanted : Ask} {keep : List Call → List Call}
  {next : List Call → Station} {denied : Station} {halt : Halt}

theorem warranted_append (ht : Throughout (Warranted env) t)
    (hw : ∀ e ∈ w, e.isUse false = false) : Throughout (Warranted env) (t ++ w) := by
  induction w generalizing t with
  | nil => rwa [List.append_nil]
  | cons e w ih =>
    rw [List.append_cons]
    exact ih (ht.snoc (.of_unused (hw e List.mem_cons_self)))
      fun f hf => hw f (List.mem_cons_of_mem _ hf)

/-- While an answer is put together, what goes out of it uses no tool. -/
theorem warranted_streaming (ht : Throughout (Warranted env) t)
    (hopen : answering false t = true) (hw : ∀ e ∈ w, e.answer? = none ∧ e.isWork = false) :
    Throughout (Warranted env) (t ++ w) := by
  induction w generalizing t with
  | nil => rwa [List.append_nil]
  | cons e w ih =>
    obtain ⟨hanswer, hwork⟩ := hw e List.mem_cons_self
    have hsaid : Warranted env t e := by
      intro huse
      rw [hopen] at huse
      cases e with
      | invocation => cases hwork
      | waitBegan => cases hwork
      | event e => cases e <;> cases huse
      | _ => cases huse
    have hstill : answering false (t ++ [e]) = true := by
      rw [answering_append, hopen]
      exact (ownTexts_answering fun f hf => List.mem_singleton.mp hf ▸ hanswer).2
    rw [List.append_cons]
    exact ih (ht.snoc hsaid) hstill fun f hf => hw f (List.mem_cons_of_mem _ hf)

theorem BrokenTrail.warranted (h : BrokenTrail request u) (ht : Throughout (Warranted env) t) :
    Throughout (Warranted env) (t ++ u) := by
  cases h with
  | @broken time tries es htries hes =>
    have hcalled : Throughout (Warranted env) (t ++ [.modelCall time request]) :=
      ht.snoc (.of_unused rfl)
    have hopen : answering false (t ++ [.modelCall time request]) = true := by
      rw [answering_append]
      rfl
    have hrest := warranted_streaming hcalled hopen (w := tries ++ es.map .event) fun e he => by
      refine ⟨unanswered_attempts htries es e he, ?_⟩
      rcases List.mem_append.mp he with he | he
      · obtain ⟨_, rfl⟩ := htries e he
        rfl
      · obtain ⟨_, -, rfl⟩ := List.mem_map.mp he
        rfl
    simpa using hrest

theorem AnswerTrail.warranted {supply : Supply} (h : AnswerTrail supply request u turn)
    (ht : Throughout (Warranted env) t) : Throughout (Warranted env) (t ++ u) := by
  obtain ⟨v, rfl, hv, -⟩ := h.eq_append
  rw [← List.append_assoc]
  exact (hv.warranted ht).snoc (.of_unused rfl)

theorem AnswerTrail.lastAnswer {supply : Supply} {time most : Nat}
    (h : AnswerTrail supply request u turn) (hbegun : Begun time most request u)
    (hdirective : request.directive ≠ some summaryDirective) :
    LastAnswer request turn (t ++ u) where
  asked := by
    obtain ⟨n, hpos, -, hrequests⟩ := hbegun.requests
    rw [requestsOf_append, hrequests]
    exact List.mem_append_right _ (List.mem_replicate.mpr ⟨Nat.ne_of_gt hpos, rfl⟩)
  answered := by
    rw [answersOf_append, h.ownTexts_eq.2.2, List.getLast?_concat]
  notFinal := hdirective

/-- A run keeps calls of the answer that it asks for, and none of the final one. -/
theorem asked_keeps (hd : Decides env rounds s c (.ask wanted keep next denied)) :
    (∀ calls, ∀ call ∈ keep calls, call ∈ calls) ∧
      (wanted.directive ≠ some summaryDirective ∨ ∀ calls, keep calls = []) := by
  cases hd with
  | decide => exact ⟨fun calls _ h => List.mem_of_mem_take h, Or.inl (Option.some_ne_none _).symm⟩
  | step _ => exact ⟨fun calls _ h => List.mem_of_mem_take h, Or.inl (Option.some_ne_none _).symm⟩
  | plan _ _ =>
    exact ⟨fun _ _ h => h, Or.inl fun h => planDirective_ne_summary _ (Option.some.inj h)⟩
  | round _ _ =>
    exact ⟨fun _ _ h => h, Or.inl fun h => taskDirective_ne_summary _ (Option.some.inj h)⟩
  | summary _ => exact ⟨fun calls _ h => List.mem_of_mem_take h, Or.inr fun _ => rfl⟩

/-- A move asks the model. -/
def Move.isAsk : Move → Bool
  | .ask .. => true
  | _ => false

theorem Moved.warranted (h : Moved env s s' m c) (hask : m.isAsk = false)
    (hs : Throughout (Warranted env) s.trail) : Throughout (Warranted env) s'.trail := by
  cases h with
  | go hsame => exact hsame ▸ hs
  | denied _ _ => cases hask
  | answered _ _ _ _ _ => cases hask
  | marked htrail _ =>
    rw [htrail]
    exact hs.snoc (.of_unused rfl)
  | replanned htrail _ =>
    rw [htrail]
    exact hs.snoc (.of_unused rfl)
  | told htrail _ =>
    rw [htrail]
    exact hs.snoc (.of_unused rfl)

theorem Stopped.warranted (h : Stopped env s s' m halt) (hask : m.isAsk = false)
    (hs : Throughout (Warranted env) s.trail) : Throughout (Warranted env) s'.trail := by
  cases h with
  | halted hsame => exact hsame ▸ hs
  | broke _ _ _ _ _ _ => cases hask
  | unanswered _ _ _ _ _ _ => cases hask
  | unmarked htrail _ _ => exact htrail ▸ hs
  | unshown htrail _ _ => exact htrail ▸ hs
  | untold htrail _ _ => exact htrail ▸ hs

/-- The model is asked and the calls that are kept of its answer are answered. -/
theorem ask_warranted (hrest : Resting env s) (hsteady : s.Steady)
    (hs : Throughout (Warranted env) s.trail)
    (hd : Decides env rounds s c (.ask wanted keep next denied)) :
    Ensures (Move.run env (.ask wanted keep next denied)) s
      (fun _ s' => Throughout (Warranted env) s'.trail)
      (fun _ s' => Throughout (Warranted env) s'.trail) := by
  obtain ⟨k, p⟩ := hrest
  obtain ⟨hkeep, hfinal⟩ := asked_keeps hd
  have hkeeps := notBefore_keeps env 0
  have hkept : Kept (NotBefore 0) s := ⟨Nat.zero_le _, hsteady⟩
  simp only [Move.run, ensures_bind]
  refine ((callModel_spec p wanted).and (hkeeps.callModel_kept wanted hkept)).mono
    (fun answer s₁ h₁ => ?_) (fun halt s₁ h₁ => ?_)
  · cases answer with
    | none =>
      obtain ⟨⟨-, rfl⟩, -⟩ := h₁
      exact hs
    | some turn =>
      obtain ⟨⟨spending, u, k₁, -, hu, hbegun, p₁⟩, hkept₁⟩ := h₁
      simp only [ensures_bind, ensures_pure]
      refine ((commit_spec p₁ turn (keep turn.calls)).and (hkeeps.commit_kept _ hkept₁)).mono
        (fun _ s₂ h₂ => ?_) (fun _ _ h => h.1.elim)
      obtain ⟨p₂, hkept₂⟩ := h₂
      have hanswered : Throughout (Warranted env) s₂.trail := by
        rw [p₂.trail]
        exact hu.warranted hs
      rcases hfinal with hdirective | hnone
      · have hlast : LastAnswer (requestFor env s.history wanted) turn s₂.trail := by
          rw [p₂.trail]
          exact hu.lastAnswer hbegun hdirective
        exact (dispatchAll_obeys (hkeep turn.calls) ⟨⟨hanswered, hlast, trivial⟩, hkept₂.2⟩).mono
          (fun _ _ h₃ => h₃.1.warranted) (fun _ _ h₃ => h₃)
      · rw [hnone]
        exact hanswered
  · obtain ⟨⟨-, spending, u, a, -, hu, -, p₁⟩, -⟩ := h₁
    rw [p₁.trail]
    exact hu.warranted hs

/-- No move uses a tool without a warrant. -/
theorem advance_warranted (hrest : Resting env s) (hsteady : s.Steady)
    (hs : Throughout (Warranted env) s.trail) :
    Ensures (advance env rounds c) s (fun _ s' => Throughout (Warranted env) s'.trail)
      (fun _ s' => Throughout (Warranted env) s'.trail) := by
  have hd := decides env rounds s c
  simp only [advance, ensures_bind, ensures_get]
  cases hm : c.move env rounds s with
  | ask wanted keep next denied => exact ask_warranted hrest hsteady hs (hm ▸ hd)
  | _ =>
    exact (move_spec hrest _).mono (fun _ _ h => h.2.warranted rfl hs)
      (fun _ _ h => h.warranted rfl hs)

end Moves

/-! ## Whole runs -/

/-- Whatever the model answers, a tool is invoked, its client waited for or its call echoed only if
it is registered under the name of a call in hand, and that call is one of the last answer of the
model, to a request other than that for the final answer. -/
theorem uses_are_warranted (engine : Engine) (turn : UserTurn) (world : World) (fuel : Nat) :
    Throughout (Warranted (engine.start turn world).1)
      (engine.run turn world fuel).final.trail := by
  have hstart : Throughout (Warranted (engine.start turn world).1)
      (engine.start turn world).2.trail := by
    rw [start_stands.trail]
    exact throughout_nil
  have hstages : Throughout (Warranted (engine.start turn world).1)
      (afterStages engine turn world fuel).trail :=
    stages_leave (P := fun s => Throughout (Warranted (engine.start turn world).1) s.trail) hstart
      fun c s hvisits hs => advance_warranted hvisits.resting hvisits.steady hs
  obtain ⟨es, -, htrail, -, hending⟩ := final_eq engine turn world fuel
  rw [htrail]
  refine warranted_append hstages fun e he => ?_
  obtain ⟨f, hf, rfl⟩ := List.mem_map.mp he
  rcases hending f hf with ⟨block, message, rfl⟩ | ⟨reason, rfl⟩
  · rfl
  · rfl

/-- A turn of an agent that declares no tool. -/
def undeclaring : UserTurn :=
  { firstTurn .oneshot with agent := { (firstTurn .oneshot).agent with tools := [] } }

/-- A model that calls a tool that it was not offered, and then speaks. -/
def unprompted : Engine :=
  rehearsal [Script.ofChunks (Script.calls [("c1", "echo", .empty)]) .done,
    Script.ofChunks (Script.texts ["Done"]) .done]

/-- A registered tool is invoked though no request of the run offered any. -/
theorem undeclared_tool_is_invoked :
    let final := (unprompted.run undeclaring (.new 1) 0).final
    final.requests.map (·.tools) = [[], []] ∧ final.invocations.map Invocation.tool = ["echo"] ∧
      ¬ ∀ i ∈ final.invocations, ∃ request ∈ final.requests, ∃ d ∈ request.tools,
        d.name = i.tool := by
  decide +kernel

end AgentRun.Run
