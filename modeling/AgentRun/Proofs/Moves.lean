import AgentRun.Proofs.PlanGrowth
import AgentRun.Proofs.StageMachine
import AgentRun.Proofs.WholeRun

/-!
# What a move leaves

Between two moves a run rests: nothing is owed to any call and nothing of an answer is left. `Moved`
says what every move makes of the trail and the ledger, and `Stopped` what is left where one halts
the run. What is counted along a run are the model calls, the requests that they make, the calls
that are taken up and the tasks that are settled; `Consulted` says how the model adds to them,
whether or not the run goes on.
-/

namespace AgentRun.Run

/-- A run rests between two moves. -/
def Resting (env : Env) (s : State) : Prop := ∃ k, Stands env s.trail s.ledger (.start k) s

/-- The calls of an answer were answered, one after another. -/
inductive AllAnswered : List Call → Ledger → List Entry → Ledger → Prop
  | nil (l : Ledger) : AllAnswered [] l [] l
  | cons {call : Call} {calls : List Call} {l l' l'' : Ledger} {v w : List Entry}
      (h : Answered call l v l') (hrest : AllAnswered calls l' w l'') :
      AllAnswered (call :: calls) l (v ++ w) l''

/-- Calls were answered up to one that halted the run. -/
inductive PartlyAnswered : List Call → Ledger → List Entry → Ledger → Prop
  | halted {call : Call} {calls : List Call} {l l' : Ledger} {v : List Entry}
      (h : Unanswered call l v l' ∨ Unshown call l v l') : PartlyAnswered (call :: calls) l v l'
  | cons {call : Call} {calls : List Call} {l l' l'' : Ledger} {v w : List Entry}
      (h : Answered call l v l') (hrest : PartlyAnswered calls l' w l'') :
      PartlyAnswered (call :: calls) l (v ++ w) l''

/-- A move that leads on to a station, and the states before and after it. -/
inductive Moved (env : Env) (s s' : State) : Move → Station → Prop
  | go {next : Station} (h : s' = s) : Moved env s s' (.go next) next
  | denied {wanted : Ask} {keep : List Call → List Call} {next : List Call → Station}
      {denied : Station} (hspent : s.spending.modelIsSpent = true) (h : s' = s) :
      Moved env s s' (.ask wanted keep next denied) denied
  | answered {wanted : Ask} {keep : List Call → List Call} {next : List Call → Station}
      {denied : Station} {spending : Spending} {u v : List Entry} {turn : Turn}
      (hadmitted : s.spending.admitModel = .ok spending)
      (hbegun : Begun s.now spending.budget.model.attempts (requestFor env s.history wanted) u)
      (hu : AnswerTrail env.supply (requestFor env s.history wanted) u turn)
      (hv : AllAnswered (keep turn.calls) { s.ledger with
        spending := spending
        history := committed s.history turn (keep turn.calls) } v s'.ledger)
      (htrail : s'.trail = s.trail ++ u ++ v) :
      Moved env s s' (.ask wanted keep next denied) (next (keep turn.calls))
  | marked {label : String} {next : Station}
      (htrail : s'.trail = s.trail ++ [.event (.stage label)]) (hledger : s'.ledger = s.ledger) :
      Moved env s s' (.mark label next) next
  | replanned {plan : Plan} {next : Station}
      (htrail : s'.trail = s.trail ++ [.event (.planUpdate plan)])
      (hledger : s'.ledger = { s.ledger with plan := plan }) :
      Moved env s s' (.replan plan next) next
  | told {text : String} {next : Station}
      (htrail : s'.trail = s.trail ++
        [.event (.content (IdKind.block.mint env.supply s.assembly.minted) text)])
      (hledger : s'.ledger = { s.ledger with
        history := s.history ++ [.assistant (.ofText text)] }) :
      Moved env s s' (.tell text next) next

/-- A move that halts the run, and the states before and after it. -/
inductive Stopped (env : Env) (s s' : State) : Move → Halt → Prop
  | halted {halt : Halt} (h : s' = s) : Stopped env s s' (.halt halt) halt
  | broke {wanted : Ask} {keep : List Call → List Call} {next : List Call → Station}
      {denied : Station} {spending : Spending} {u : List Entry} {halt : Halt}
      (hadmitted : s.spending.admitModel = .ok spending)
      (hbegun : Begun s.now spending.budget.model.attempts (requestFor env s.history wanted) u)
      (hu : BrokenTrail (requestFor env s.history wanted) u)
      (htrail : s'.trail = s.trail ++ u)
      (hledger : s'.ledger = { s.ledger with spending := spending })
      (hhalt : ModelFault halt ∨ Gone halt s') :
      Stopped env s s' (.ask wanted keep next denied) halt
  | unanswered {wanted : Ask} {keep : List Call → List Call} {next : List Call → Station}
      {denied : Station} {spending : Spending} {u v : List Entry} {turn : Turn} {halt : Halt}
      (hadmitted : s.spending.admitModel = .ok spending)
      (hbegun : Begun s.now spending.budget.model.attempts (requestFor env s.history wanted) u)
      (hu : AnswerTrail env.supply (requestFor env s.history wanted) u turn)
      (hv : PartlyAnswered (keep turn.calls) { s.ledger with
        spending := spending
        history := committed s.history turn (keep turn.calls) } v s'.ledger)
      (htrail : s'.trail = s.trail ++ u ++ v) (hhalt : CallFault halt ∨ Gone halt s') :
      Stopped env s s' (.ask wanted keep next denied) halt
  | unmarked {label : String} {next : Station} {halt : Halt} (htrail : s'.trail = s.trail)
      (hledger : s'.ledger = s.ledger) (hgone : Gone halt s') :
      Stopped env s s' (.mark label next) halt
  | unshown {plan : Plan} {next : Station} {halt : Halt} (htrail : s'.trail = s.trail)
      (hledger : s'.ledger = { s.ledger with plan := plan }) (hgone : Gone halt s') :
      Stopped env s s' (.replan plan next) halt
  | untold {text : String} {next : Station} {halt : Halt} (htrail : s'.trail = s.trail)
      (hledger : s'.ledger = s.ledger) (hgone : Gone halt s') :
      Stopped env s s' (.tell text next) halt

section Inversion

variable {env : Env} {rounds : Nat} {s s' : State} {m : Move} {c c' : Station} {t : List Entry}
  {l : Ledger} {k : Nat}

theorem Stands.resting (p : Stands env t l (.start k) s) : Resting env s :=
  ⟨k, rfl, rfl, p.assembly, p.ready⟩

theorem dispatchAll_spec {calls : List Call} (p : Stands env t l (.start k) s) :
    Ensures (dispatchAll env calls) s
      (fun _ s' => ∃ v l' k', AllAnswered calls l v l' ∧ Stands env (t ++ v) l' (.start k') s')
      (fun halt s' => (CallFault halt ∨ Gone halt s') ∧ ∃ v l' a, PartlyAnswered calls l v l' ∧
        Stands env (t ++ v) l' a s') := by
  induction calls generalizing t l k s with
  | nil => exact ⟨[], l, k, .nil l, by simpa using p⟩
  | cons call calls ih =>
    simp only [dispatchAll, ensures_bind]
    refine (dispatch_spec p call).mono (fun _ s₁ h => ?_) (fun halt s₁ h => ?_)
    · obtain ⟨v, l₁, k₁, hv, p₁⟩ := h
      refine (ih p₁).mono (fun _ s₂ h₂ => ?_) (fun halt s₂ h₂ => ?_)
      · obtain ⟨w, l₂, k₂, hw, p₂⟩ := h₂
        exact ⟨v ++ w, l₂, k₂, .cons hv hw, by simpa using p₂⟩
      · obtain ⟨hhalt, w, l₂, a, hw, p₂⟩ := h₂
        exact ⟨hhalt, v ++ w, l₂, a, .cons hv hw, by simpa using p₂⟩
    · obtain ⟨v, l₁, a, p₁, ⟨hhalt, hv⟩ | ⟨hgone, hv⟩⟩ := h
      · exact ⟨hhalt, v, l₁, a, .halted (Or.inl hv), p₁⟩
      · exact ⟨Or.inr hgone, v, l₁, a, .halted (Or.inr hv), p₁⟩

theorem move_spec (h : Resting env s) (m : Move) :
    Ensures (m.run env) s (fun c s' => Resting env s' ∧ Moved env s s' m c)
      (fun halt s' => Stopped env s s' m halt) := by
  obtain ⟨k, p⟩ := h
  cases m with
  | go next => exact ⟨p.resting, .go rfl⟩
  | halt halt => exact .halted rfl
  | mark label next =>
    simp only [Move.run, ensures_bind, ensures_pure]
    refine (stageMarker_spec p label).mono (fun _ s₁ p₁ => ?_) (fun halt s₁ h => ?_)
    · exact ⟨p₁.resting, .marked p₁.trail p₁.ledger⟩
    · exact .unmarked h.2.trail h.2.ledger h.1
  | tell text next =>
    simp only [Move.run, ensures_bind, ensures_pure]
    refine (say_spec p text).mono (fun _ s₁ p₁ => ?_) (fun halt s₁ h => ?_)
    · refine ⟨Stands.resting (k := k + 1) p₁, .told ?_ p₁.ledger⟩
      rw [p₁.trail, p.assembly]
    · exact .untold h.2.trail h.2.ledger h.1
  | replan plan next =>
    have p₀ : Stands env s.trail { s.ledger with plan := plan } (.start k)
        { s with plan := plan } := p.withLedger rfl rfl rfl rfl rfl
    simp only [Move.run, ensures_bind, ensures_modify, ensures_pure]
    refine (showPlan_spec p₀).mono (fun _ s₁ p₁ => ?_) (fun halt s₁ h => ?_)
    · exact ⟨p₁.resting, .replanned p₁.trail p₁.ledger⟩
    · exact .unshown h.2.trail h.2.ledger h.1
  | ask wanted keep next denied =>
    simp only [Move.run, ensures_bind]
    refine (callModel_spec p wanted).mono (fun answer s₁ h => ?_) (fun halt s₁ h => ?_)
    · cases answer with
      | none =>
        obtain ⟨hspent, rfl⟩ := h
        exact ⟨p.resting, .denied hspent rfl⟩
      | some turn =>
        obtain ⟨spending, u, k₁, hadmitted, hu, hbegun, p₁⟩ := h
        simp only [ensures_bind, ensures_pure]
        refine (commit_spec p₁ turn (keep turn.calls)).mono (fun _ s₂ p₂ => ?_)
          (fun _ _ h => h.elim)
        refine (dispatchAll_spec p₂).mono (fun _ s₃ h => ?_) (fun halt s₃ h => ?_)
        · obtain ⟨v, l₃, k₃, hv, p₃⟩ := h
          exact ⟨p₃.resting, .answered hadmitted hbegun hu (p₃.ledger ▸ hv) p₃.trail⟩
        · obtain ⟨hhalt, v, l₃, a, hv, p₃⟩ := h
          exact .unanswered hadmitted hbegun hu (p₃.ledger ▸ hv) p₃.trail hhalt
    · obtain ⟨hhalt, spending, u, a, hadmitted, hu, hbegun, p₁⟩ := h
      exact .broke hadmitted hbegun hu p₁.trail p₁.ledger hhalt

theorem advances_moved (h : Resting env s) (hadv : Advances env rounds (c, s) (c', s')) :
    Resting env s' ∧ Moved env s s' (c.move env rounds s) c' :=
  (move_spec h (c.move env rounds s)).of_run hadv

theorem advance_stopped {halt : Halt} (h : Resting env s)
    (hadv : (advance env rounds c).run s = (.error halt, s')) :
    Stopped env s s' (c.move env rounds s) halt :=
  (move_spec h (c.move env rounds s)).of_run hadv

/-- A property that the moves of a part of the stages hand on holds wherever a run passes in it. -/
theorem passesIn_induction {part : Station → Bool} {I : Station → State → Prop}
    (hrest : Resting env s) (hstart : I c s)
    (hstep : ∀ c s c' s', part c = true → Resting env s → I c s →
      Moved env s s' (c.move env rounds s) c' → I c' s')
    (h : PassesIn part env rounds (c, s) (c', s')) : Resting env s' ∧ I c' s' := by
  refine handed_on (I := fun c s => Resting env s ∧ I c s) h ⟨hrest, hstart⟩ fun p q _ hp hadv => ?_
  obtain ⟨hrest', hmoved⟩ := advances_moved hp.1 hadv.2
  exact ⟨hrest', hstep _ _ _ _ hadv.1 hp.1 hp.2 hmoved⟩

end Inversion

/-! ## What is counted -/

/-- What calls leave of a ledger, as far as they were answered. -/
structure Served (calls : List Call) (l : Ledger) (v : List Entry) (l' : Ledger) : Prop where
  ofCall : ∀ e ∈ v, e.isOfCall = true
  taken : dispatched v <+: calls
  grows : l.plan.GrowsTo l'.plan
  spending : l'.spending = { l.spending with toolCalls := l'.spending.toolCalls }

section Calls

variable {call : Call} {calls : List Call} {l l' : Ledger} {u v shown : List Entry} {p q : Plan}

theorem charge_eq (sp : Spending) (c : Call) :
    charge sp c = { sp with toolCalls := (charge sp c).toolCalls } := by
  unfold charge
  split <;> rfl

theorem Shows.grows (h : Shows p q shown) : p.GrowsTo q := by
  cases h with
  | same => exact .refl p
  | changed happly => exact PlanTool.apply_grows happly

theorem dispatched_taken (hu : ∀ e ∈ u, e.Serves call) :
    dispatched (.dispatch call :: u) = [call] :=
  congrArg (call :: ·) (dispatched_quiet fun e he => (hu e he).quiet)

theorem dispatched_shown {callId : String} {result : Json} {done : List Entry}
    (h : Shows p q shown) (hdone : done <+: .event (.toolResult callId result) :: shown) :
    dispatched done = [] := by
  refine List.filterMap_eq_nil_iff.mpr fun e he => ?_
  rcases List.mem_cons.mp (hdone.subset he) with rfl | he
  · rfl
  · cases h with
    | same => exact absurd he List.not_mem_nil
    | changed happly =>
      obtain rfl := List.mem_singleton.mp he
      rfl

theorem Answered.served (h : Answered call l v l') :
    Served [call] l v l' ∧ dispatched v = [call] := by
  have hof := h.ofCall
  cases h with
  | @answered u shown plan args result hu hshown =>
    have htaken : dispatched (.dispatch call :: u ++ .event (.toolResult call.id result) :: shown) =
        [call] := by
      rw [dispatched_append, dispatched_taken hu, dispatched_shown hshown List.prefix_rfl]
      rfl
    exact ⟨⟨hof, htaken ▸ List.prefix_rfl, hshown.grows, charge_eq _ _⟩, htaken⟩

theorem Unanswered.served (h : Unanswered call l v l') : Served [call] l v l' := by
  have hof := h.ofCall
  cases h with
  | unanswered hu => exact ⟨hof, dispatched_taken hu ▸ List.prefix_rfl, .refl _, charge_eq _ _⟩

theorem Unshown.served (h : Unshown call l v l') : Served [call] l v l' := by
  have hof := h.ofCall
  cases h with
  | unshown args result hu hshown hdone =>
    refine ⟨hof, ?_, hshown.grows, charge_eq _ _⟩
    rw [dispatched_append, dispatched_taken hu, dispatched_shown hshown hdone]
    exact List.prefix_rfl

theorem Served.after_answer {l₁ : Ledger} {w : List Entry} (h : Answered call l v l₁)
    (hrest : Served calls l₁ w l') : Served (call :: calls) l (v ++ w) l' := by
  obtain ⟨hserved, htaken⟩ := h.served
  refine ⟨fun e he => ?_, ?_, hserved.grows.trans hrest.grows, ?_⟩
  · rcases List.mem_append.mp he with he | he
    · exact hserved.ofCall e he
    · exact hrest.ofCall e he
  · rw [dispatched_append, htaken]
    exact (List.prefix_append_right_inj [call]).mpr hrest.taken
  · rw [hrest.spending, hserved.spending]

theorem AllAnswered.served (h : AllAnswered calls l v l') :
    Served calls l v l' ∧ dispatched v = calls := by
  induction h with
  | nil l => exact ⟨⟨fun _ h => absurd h List.not_mem_nil, List.nil_prefix, .refl _, rfl⟩, rfl⟩
  | cons h hrest ih =>
    refine ⟨.after_answer h ih.1, ?_⟩
    rw [dispatched_append, h.served.2, ih.2]
    rfl

theorem PartlyAnswered.served (h : PartlyAnswered calls l v l') : Served calls l v l' := by
  induction h with
  | @halted call calls l l' v h =>
    have hserved : Served [call] l v l' := h.elim Unanswered.served Unshown.served
    exact ⟨hserved.ofCall, hserved.taken.trans (List.prefix_append [call] calls), hserved.grows,
      hserved.spending⟩
  | cons h hrest ih => exact .after_answer h ih

theorem callsOf_ofCall (h : ∀ e ∈ v, e.isOfCall = true) : callsOf v = [] :=
  List.filterMap_eq_nil_iff.mpr fun e he => by
    cases e with
    | modelCall => cases h _ he
    | _ => rfl

end Calls

/-- What the model adds to the counts of a run that asks it, come what may. -/
structure Consulted (env : Env) (wanted : Ask) (keep : List Call → List Call) (s s' : State) :
    Prop where
  admitted : s.spending.modelIsSpent = false
  calls : callsOf s'.trail = callsOf s.trail ++ [(s.now, requestFor env s.history wanted)]
  requests : ∃ n, 0 < n ∧ n ≤ s.spending.budget.model.attempts ∧ requestsOf s'.trail =
    requestsOf s.trail ++ List.replicate n (requestFor env s.history wanted)
  taken : ∃ turn : Turn, ∃ calls, calls <+: keep turn.calls ∧
    dispatched s'.trail = dispatched s.trail ++ calls
  grows : s.plan.GrowsTo s'.plan
  spending : s'.spending = { s.spending with
    modelCalls := s.spending.modelCalls + 1
    toolCalls := s'.spending.toolCalls }

section Consulting

variable {env : Env} {s s' : State} {wanted : Ask} {keep : List Call → List Call}
  {next : List Call → Station} {denied c : Station} {spending : Spending} {u v : List Entry}
  {turn : Turn}

theorem AnswerTrail.dispatched_nil {supply : Supply} {request : ModelRequest}
    (h : AnswerTrail supply request u turn) : dispatched u = [] := by
  obtain ⟨v, rfl, hv, -⟩ := h.eq_append
  rw [dispatched_append, dispatched_quiet hv.quiet]
  rfl

/-- A call to the model, with what became of the calls of its answer. -/
theorem Consulted.of_parts {calls : List Call} {l : Ledger}
    (hadmitted : s.spending.admitModel = .ok spending)
    (hbegun : Begun s.now spending.budget.model.attempts (requestFor env s.history wanted) u)
    (hu : dispatched u = []) (hl : l.plan = s.plan) (hspending : l.spending = spending)
    (hv : Served calls l v s'.ledger) (hcalls : ∃ turn : Turn, calls = keep turn.calls)
    (htrail : s'.trail = s.trail ++ u ++ v) : Consulted env wanted keep s s' := by
  obtain ⟨hunspent, rfl⟩ := admitModel_eq hadmitted
  obtain ⟨turn, rfl⟩ := hcalls
  refine ⟨hunspent, ?_, ?_, ⟨turn, dispatched v, hv.taken, ?_⟩, hl ▸ hv.grows, ?_⟩
  · rw [htrail, callsOf_append, callsOf_append, hbegun.calls, callsOf_ofCall hv.ofCall,
      List.append_nil]
  · obtain ⟨n, hpos, hmost, hn⟩ := hbegun.requests
    refine ⟨n, hpos, hmost, ?_⟩
    rw [htrail, requestsOf_append, requestsOf_append, hn, requestsOf_ofCall hv.ofCall,
      List.append_nil]
  · rw [htrail, dispatched_append, dispatched_append, hu, List.append_nil]
  · have h : s'.spending = { l.spending with toolCalls := s'.spending.toolCalls } := hv.spending
    rw [h, hspending]

/-- A run that asks the model is denied, or goes on with all calls answered that it keeps. -/
theorem Moved.consulted (h : Moved env s s' (.ask wanted keep next denied) c) :
    s.spending.modelIsSpent = true ∧ s' = s ∧ c = denied ∨
      Consulted env wanted keep s s' ∧ ∃ turn : Turn, c = next (keep turn.calls) ∧
        dispatched s'.trail = dispatched s.trail ++ keep turn.calls := by
  cases h with
  | denied hspent h => exact Or.inl ⟨hspent, h, rfl⟩
  | @answered _ _ _ _ spending u v turn hadmitted hbegun hu hv htrail =>
    obtain ⟨hserved, htaken⟩ := hv.served
    refine Or.inr ⟨.of_parts hadmitted hbegun hu.dispatched_nil rfl rfl hserved ⟨turn, rfl⟩ htrail,
      turn, rfl, ?_⟩
    rw [htrail, dispatched_append, dispatched_append, hu.dispatched_nil, htaken, List.append_nil]

theorem Stopped.consulted {halt : Halt} (h : Stopped env s s' (.ask wanted keep next denied) halt) :
    Consulted env wanted keep s s' := by
  cases h with
  | @broke _ _ _ _ spending u _ hadmitted hbegun hu htrail hledger hhalt =>
    have hserved : Served (keep []) { s.ledger with spending := spending } [] s'.ledger :=
      ⟨fun _ h => absurd h List.not_mem_nil, List.nil_prefix, hledger ▸ .refl _, by rw [hledger]⟩
    exact .of_parts hadmitted hbegun (dispatched_quiet hu.quiet) rfl rfl hserved
      ⟨⟨"", "", [], none⟩, rfl⟩ (by simpa using htrail)
  | @unanswered _ _ _ _ spending u v turn _ hadmitted hbegun hu hv htrail hhalt =>
    exact .of_parts hadmitted hbegun hu.dispatched_nil rfl rfl hv.served ⟨turn, rfl⟩ htrail

/-- What a run counts is left alone. -/
structure Uncounted (s s' : State) : Prop where
  calls : callsOf s'.trail = callsOf s.trail
  requests : requestsOf s'.trail = requestsOf s.trail
  taken : dispatched s'.trail = dispatched s.trail
  spending : s'.spending = s.spending

theorem Uncounted.of_same (h : s' = s) : Uncounted s s' := by
  subst h
  exact ⟨rfl, rfl, rfl, rfl⟩

theorem Uncounted.of_event {e : Event} {l : Ledger} (htrail : s'.trail = s.trail ++ [.event e])
    (hledger : s'.ledger = l) (hl : l.spending = s.spending) : Uncounted s s' := by
  refine ⟨?_, ?_, ?_, (congrArg Ledger.spending hledger).trans hl⟩
  · rw [htrail, callsOf_append]
    exact List.append_nil _
  · rw [htrail, requestsOf_append]
    exact List.append_nil _
  · rw [htrail, dispatched_append]
    exact List.append_nil _

theorem Uncounted.of_trail {l : Ledger} (htrail : s'.trail = s.trail) (hledger : s'.ledger = l)
    (hl : l.spending = s.spending) : Uncounted s s' :=
  ⟨by rw [htrail], by rw [htrail], by rw [htrail], (congrArg Ledger.spending hledger).trans hl⟩

theorem Moved.leads {m : Move} {P : Station → Prop} (h : Moved env s s' m c) (hm : m.LeadsTo P) :
    P c := by
  cases h with
  | go _ => exact hm
  | denied _ _ => exact hm.2
  | answered _ _ _ _ _ => exact hm.1 _
  | marked _ _ => exact hm
  | replanned _ _ => exact hm
  | told _ _ => exact hm

theorem Moved.go_eq {dest : Station} (h : Moved env s s' (.go dest) c) : c = dest ∧ s' = s := by
  cases h with
  | go h => exact ⟨rfl, h⟩

theorem Moved.mark_eq {label : String} {dest : Station} (h : Moved env s s' (.mark label dest) c) :
    c = dest ∧ s'.plan = s.plan ∧ Uncounted s s' := by
  cases h with
  | marked htrail hledger =>
    exact ⟨rfl, congrArg Ledger.plan hledger, .of_event htrail hledger rfl⟩

theorem Moved.replan_eq {plan : Plan} {dest : Station} (h : Moved env s s' (.replan plan dest) c) :
    c = dest ∧ s'.plan = plan ∧ Uncounted s s' := by
  cases h with
  | replanned htrail hledger =>
    exact ⟨rfl, congrArg Ledger.plan hledger, .of_event htrail hledger rfl⟩

theorem Moved.tell_eq {text : String} {dest : Station} (h : Moved env s s' (.tell text dest) c) :
    c = dest ∧ s'.plan = s.plan ∧ Uncounted s s' := by
  cases h with
  | told htrail hledger =>
    exact ⟨rfl, congrArg Ledger.plan hledger, .of_event htrail hledger rfl⟩

variable {m : Move} {halt : Halt}

/-- Only a call to the model counts. -/
theorem Moved.counts (h : Moved env s s' m c) : Uncounted s s' ∨
    ∃ wanted keep next denied, m = .ask wanted keep next denied ∧
      Consulted env wanted keep s s' := by
  cases m with
  | ask wanted keep next denied =>
    rcases h.consulted with ⟨-, hsame, -⟩ | ⟨hconsulted, -⟩
    · exact Or.inl (.of_same hsame)
    · exact Or.inr ⟨_, _, _, _, rfl, hconsulted⟩
  | go dest => exact Or.inl (.of_same h.go_eq.2)
  | mark label dest => exact Or.inl h.mark_eq.2.2
  | replan plan dest => exact Or.inl h.replan_eq.2.2
  | tell text dest => exact Or.inl h.tell_eq.2.2
  | halt halt => cases h

theorem Stopped.counts (h : Stopped env s s' m halt) : Uncounted s s' ∨
    ∃ wanted keep next denied, m = .ask wanted keep next denied ∧
      Consulted env wanted keep s s' := by
  cases m with
  | ask wanted keep next denied => exact Or.inr ⟨_, _, _, _, rfl, h.consulted⟩
  | go dest => cases h
  | mark label dest =>
    cases h with
    | unmarked htrail hledger hgone => exact Or.inl (.of_trail htrail hledger rfl)
  | replan plan dest =>
    cases h with
    | unshown htrail hledger hgone => exact Or.inl (.of_trail htrail hledger rfl)
  | tell text dest =>
    cases h with
    | untold htrail hledger hgone => exact Or.inl (.of_trail htrail hledger rfl)
  | halt halt =>
    cases h with
    | halted h => exact Or.inl (.of_same h)

/-- Nothing but the lack of fuel cuts a run. -/
theorem Stopped.cut_eq (h : Stopped env s s' m .cut) : m = .halt .cut ∧ s' = s := by
  have nogone {s₁ : State} : ¬ Gone .cut s₁ := fun hgone => by cases hgone.1
  cases h with
  | halted h => exact ⟨rfl, h⟩
  | broke _ _ _ _ _ hhalt =>
    rcases hhalt with hfault | hgone
    · cases hfault
    · exact absurd hgone nogone
  | unanswered _ _ _ _ _ hhalt =>
    rcases hhalt with hfault | hgone
    · cases hfault
    · exact absurd hgone nogone
  | unmarked _ _ hgone => exact absurd hgone nogone
  | unshown _ _ hgone => exact absurd hgone nogone
  | untold _ _ hgone => exact absurd hgone nogone

end Consulting

/-! ## Plans -/

section Plans

variable {env : Env} {rounds : Nat} {s s' : State} {c c' dest : Station} {plan : Plan} {halt : Halt}

/-- A run changes its plan itself when it gives a task up and when it drops what is open. -/
theorem replan_grows (hd : Decides env rounds s c (.replan plan dest)) : s.plan.GrowsTo plan := by
  cases hd with
  | giveUp hopen hplan => exact Plan.setStatus?_grows hplan
  | drop hopen => exact Plan.cancelOpen_grows _

theorem moved_grows (h : Moved env s s' (c.move env rounds s) c') : s.plan.GrowsTo s'.plan := by
  have hd := decides env rounds s c
  generalize c.move env rounds s = m at h hd
  cases m with
  | go dest => exact h.go_eq.2 ▸ .refl _
  | ask wanted keep next denied =>
    rcases h.consulted with ⟨-, hsame, -⟩ | ⟨hconsulted, -⟩
    · exact hsame ▸ .refl _
    · exact hconsulted.grows
  | mark label dest => exact h.mark_eq.2.1 ▸ .refl _
  | replan plan dest => exact h.replan_eq.2.1 ▸ replan_grows hd
  | tell text dest => exact h.tell_eq.2.1 ▸ .refl _
  | halt halt => cases h

theorem stopped_grows (h : Stopped env s s' (c.move env rounds s) halt) :
    s.plan.GrowsTo s'.plan := by
  have hd := decides env rounds s c
  generalize c.move env rounds s = m at h hd
  cases m with
  | go dest => cases h
  | ask wanted keep next denied => exact h.consulted.grows
  | mark label dest =>
    cases h with
    | unmarked htrail hledger hgone =>
      have hplan : s'.plan = s.plan := congrArg Ledger.plan hledger
      exact hplan ▸ .refl _
  | replan plan dest =>
    cases h with
    | unshown htrail hledger hgone =>
      have hplan : s'.plan = plan := congrArg Ledger.plan hledger
      exact hplan ▸ replan_grows hd
  | tell text dest =>
    cases h with
    | untold htrail hledger hgone =>
      have hplan : s'.plan = s.plan := congrArg Ledger.plan hledger
      exact hplan ▸ .refl _
  | halt halt =>
    cases h with
    | halted h => exact h ▸ .refl _

end Plans

/-! ## From the start of a run to its end -/

section Whole

variable {engine : Engine} {turn : UserTurn} {world : World} {fuel : Nat} {c c' : Station}
  {s s' : State}

/-- How the runs of a turn are driven. -/
abbrev runnerOf (engine : Engine) (turn : UserTurn) : Runner :=
  .ofAgent turn.agent engine.config

/-- The stations and states that a run comes to. -/
def Visits (engine : Engine) (turn : UserTurn) (world : World) (fuel : Nat) (c : Station)
    (s : State) : Prop :=
  Passes (engine.start turn world).1 (runnerOf engine turn).rounds
    ((runnerOf engine turn).station fuel, (engine.start turn world).2) (c, s)

theorem visits_start (engine : Engine) (turn : UserTurn) (world : World) (fuel : Nat) :
    Visits engine turn world fuel ((runnerOf engine turn).station fuel)
      (engine.start turn world).2 := .refl

/-- Where a run has come after a number of moves, if none of them halts it. -/
def reached (engine : Engine) (turn : UserTurn) (world : World) (fuel moves : Nat) :
    Station × State :=
  walk (engine.start turn world).1 (runnerOf engine turn).rounds moves
    ((runnerOf engine turn).station fuel, (engine.start turn world).2)

theorem visits_reached {moves : Nat} (hat : (reached engine turn world fuel moves).1 = c) :
    Visits engine turn world fuel c (reached engine turn world fuel moves).2 := by
  subst hat
  exact passes_walk moves _

theorem Visits.resting (h : Visits engine turn world fuel c s) :
    Resting (engine.start turn world).1 s :=
  handed_on (I := fun _ s => Resting (engine.start turn world).1 s) h start_stands.resting
    fun _ _ _ hrest hadv => (advances_moved hrest hadv).1

/-- What holds where a run comes and is handed on by every move holds wherever it goes from
there. -/
theorem Visits.onwards {I : Station → State → Prop} (h : Visits engine turn world fuel c s)
    (hstart : I c s)
    (hstep : ∀ c s c' s', Visits engine turn world fuel c s → I c s →
      Moved (engine.start turn world).1 s s'
        (c.move (engine.start turn world).1 (runnerOf engine turn).rounds s) c' → I c' s')
    (hpasses : Passes (engine.start turn world).1 (runnerOf engine turn).rounds (c, s) (c', s')) :
    I c' s' := by
  refine handed_on hpasses hstart fun p q hbefore hp hadv => ?_
  have hvisits : Visits engine turn world fuel p.1 p.2 := h.trans hbefore
  exact hstep _ _ _ _ hvisits hp (advances_moved hvisits.resting hadv).2

/-- What is left of the stages where a run comes comes out as the stages do. -/
theorem Visits.outcome (h : Visits engine turn world fuel c s) :
    (rest (engine.start turn world).1 (runnerOf engine turn).rounds c).run s =
      ((engine.run turn world fuel).stages, afterStages engine turn world fuel) := by
  rw [← h.rest_run, ← stages_eq_rest]
  rfl

/-- From wherever a run comes, its stages come out done or a move halts them. -/
theorem Visits.ends (h : Visits engine turn world fuel c s) :
    Passes (engine.start turn world).1 (runnerOf engine turn).rounds (c, s)
        (.done, afterStages engine turn world fuel) ∧
        (engine.run turn world fuel).stages = .ok () ∨
      ∃ c' s' halt,
        Passes (engine.start turn world).1 (runnerOf engine turn).rounds (c, s) (c', s') ∧
        Stopped (engine.start turn world).1 s' (afterStages engine turn world fuel)
          (c'.move (engine.start turn world).1 (runnerOf engine turn).rounds s') halt ∧
        (engine.run turn world fuel).stages = .error halt := by
  rcases passes_of_rest h.outcome with hdone | ⟨c', s', halt, hpasses, hadv, hr⟩
  · exact Or.inl hdone
  · have hvisits : Visits engine turn world fuel c' s' := h.trans hpasses
    exact Or.inr ⟨c', s', halt, hpasses, advance_stopped hvisits.resting hadv, hr⟩

/-- A move that halts a run halts its stages. -/
theorem Visits.halted {halt : Halt} (h : Visits engine turn world fuel c s)
    (hadv : (advance (engine.start turn world).1 (runnerOf engine turn).rounds c).run s =
      (.error halt, s')) :
    (engine.run turn world fuel).stages = .error halt ∧
      afterStages engine turn world fuel = s' := by
  have hout := h.outcome
  rw [rest_eq, run_bind, hadv] at hout
  obtain ⟨hstages, hafter⟩ := Prod.mk.inj hout
  exact ⟨hstages.symm, hafter.symm⟩

/-- What holds where a run comes, is handed on by every move and survives a halt holds after its
stages. -/
theorem Visits.comesOut {I : Station → State → Prop} {J : State → Prop}
    (h : Visits engine turn world fuel c s) (hstart : I c s)
    (hstep : ∀ c s c' s', Visits engine turn world fuel c s → I c s →
      Moved (engine.start turn world).1 s s'
        (c.move (engine.start turn world).1 (runnerOf engine turn).rounds s) c' → I c' s')
    (hdone : ∀ s, I .done s → J s)
    (hstop : ∀ c s s' halt, Visits engine turn world fuel c s → I c s →
      (engine.run turn world fuel).stages = .error halt →
      Stopped (engine.start turn world).1 s s'
        (c.move (engine.start turn world).1 (runnerOf engine turn).rounds s) halt → J s') :
    J (afterStages engine turn world fuel) := by
  rcases h.ends with ⟨hpasses, -⟩ | ⟨c', s', halt, hpasses, hstopped, hhalt⟩
  · exact hdone _ (h.onwards hstart hstep hpasses)
  · exact hstop c' s' _ halt (h.trans hpasses) (h.onwards hstart hstep hpasses) hhalt hstopped

/-- What every move that leads on hands on, and as much of it as a move that halts the run leaves,
comes out of the stages. -/
theorem stages_hand_on {P Q : State → Prop} (hstart : P (engine.start turn world).2)
    (hstep : ∀ c s, Visits engine turn world fuel c s → P s →
      Ensures (advance (engine.start turn world).1 (runnerOf engine turn).rounds c) s
        (fun _ s' => P s') (fun _ s' => Q s'))
    (hdone : ∀ s, P s → Q s) : Q (afterStages engine turn world fuel) := by
  have there {c : Station} {s : State} (h : Visits engine turn world fuel c s) : P s :=
    handed_on (I := fun _ s => P s) h hstart fun p _ hbefore hp hadv =>
      (hstep p.1 p.2 hbefore hp).of_run hadv
  rcases passes_of_rest (visits_start engine turn world fuel).outcome with
    ⟨hpasses, -⟩ | ⟨c', s', halt, hpasses, hadv, -⟩
  · exact hdone _ (there hpasses)
  · exact (hstep c' s' hpasses (there hpasses)).of_run hadv

/-- What every move leaves alone, whether it leads on or halts the run, holds after the stages if it
did at the start. -/
theorem stages_leave {P : State → Prop} (hstart : P (engine.start turn world).2)
    (hstep : ∀ c s, Visits engine turn world fuel c s → P s →
      Ensures (advance (engine.start turn world).1 (runnerOf engine turn).rounds c) s
        (fun _ s' => P s') (fun _ s' => P s')) : P (afterStages engine turn world fuel) :=
  stages_hand_on hstart hstep fun _ h => h

/-- After the stages a run only apologises and finishes. -/
theorem final_eq (engine : Engine) (turn : UserTurn) (world : World) (fuel : Nat) :
    ∃ (es : List Event) (texts : List String),
      (engine.run turn world fuel).final.trail =
        (afterStages engine turn world fuel).trail ++ es.map .event ∧
      (engine.run turn world fuel).final.ledger =
        (afterStages engine turn world fuel).ledger.said texts ∧
      ∀ e ∈ es, (∃ block message, e = .content block message) ∨ ∃ reason, e = .finish reason := by
  obtain ⟨t, l, a, h⟩ := ran engine turn world fuel
  have hending : ∀ e ∈ endingOf (IdKind.block.mint engine.supply a.minted)
      (engine.run turn world fuel).stages,
      (∃ block message, e = .content block message) ∨ ∃ reason, e = .finish reason :=
    fun e he => (mem_endingOf he).imp_left fun hcontent => ⟨_, hcontent⟩
  rw [h.stands.trail, h.stands.ledger]
  cases h.closed with
  | all texts hended _ => exact ⟨_, texts, hended.trail, hended.ledger, hending⟩
  | part texts hdone hended _ =>
    exact ⟨_, texts, hended.trail, hended.ledger, fun e he => hending e (hdone.subset he)⟩

/-- What a run counts is what its stages counted. -/
theorem final_uncounted (engine : Engine) (turn : UserTurn) (world : World) (fuel : Nat) :
    Uncounted (afterStages engine turn world fuel) (engine.run turn world fuel).final ∧
      (engine.run turn world fuel).final.plan = (afterStages engine turn world fuel).plan := by
  obtain ⟨es, texts, htrail, hledger, -⟩ := final_eq engine turn world fuel
  refine ⟨⟨?_, ?_, ?_, congrArg Ledger.spending hledger⟩, congrArg Ledger.plan hledger⟩
  · rw [htrail, callsOf_append, callsOf_map_event, List.append_nil]
  · rw [htrail, requestsOf_append, requestsOf_map_event, List.append_nil]
  · have hquiet : dispatched (es.map .event) = [] := by
      simp [dispatched, Function.comp_def, Entry.call?]
    rw [htrail, dispatched_append, hquiet, List.append_nil]

end Whole

end AgentRun.Run
