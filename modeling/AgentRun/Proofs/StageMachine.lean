import AgentRun.Proofs.Course

/-!
# The stages as a machine

The stages of a run are loops within loops. Here the same loops are taken move by move: a run is at
a `Station`, its state there says what its next `Move` is, and the move leads it to another station.
`rest` is what is left of the stages at a station, and the equations `rest_eq` and `taskLoop_eq` say
that the moves are those of the loops. `Passes` relates a station and a state to those that the run
comes to from there, so a property that every move preserves holds wherever a run comes.
-/

namespace AgentRun.Run

/-- Where a run is in its stages. -/
inductive Station where
  /-- A oneshot run decides. -/
  | deciding
  /-- A react run decides, with a number of decisions left. -/
  | steps (left : Nat)
  /-- A planExecute run begins. -/
  | opening (fuel : Nat)
  | planning (fuel : Nat)
  | executing (fuel : Nat)
  /-- It looks for the next open task. -/
  | looking (fuel : Nat)
  /-- It works on a task, with a number of rounds left. -/
  | working (task : PlanTask) (left fuel : Nat)
  /-- What is still open is dropped. -/
  | dropping
  | closing
  | summarizing
  /-- The model calls are used up before the final answer. -/
  | exhausted
  | done
  deriving DecidableEq, Repr

/-- What a run does next. -/
inductive Move where
  /-- It goes on elsewhere. -/
  | go (next : Station)
  /-- It asks the model, keeps some calls of the answer and answers them. Where it goes on depends
  on them, or on the call to the model being denied. -/
  | ask (wanted : Ask) (keep : List Call → List Call) (next : List Call → Station)
    (denied : Station)
  | mark (label : String) (next : Station)
  /-- It changes the plan and shows it. -/
  | replan (plan : Plan) (next : Station)
  | tell (text : String) (next : Station)
  | halt (h : Halt)

/-- What a run does at a station. -/
def Station.move (env : Env) (rounds : Nat) (s : State) : Station → Move
  | .deciding =>
    .ask (oneshotAsk env) (List.take 1)
      (fun calls => if calls.isEmpty then .done else .summarizing) .summarizing
  | .steps 0 => .go .summarizing
  | .steps (left + 1) =>
    if s.spending.isTimedOut s.now then .go .summarizing
    else .ask (reactAsk env) (List.take 1)
      (fun calls => if calls.isEmpty then .done else .steps left) .summarizing
  | .opening fuel => .mark "plan" (.planning fuel)
  | .planning fuel =>
    if s.plan.hasOpen then .go (.executing fuel)
    else if s.spending.isTimedOut s.now then .go (.executing fuel)
    else .ask (planAsk env) id (fun _ => .executing fuel) (.executing fuel)
  | .executing fuel => .mark "execute" (.looking fuel)
  | .looking 0 => .halt .cut
  | .looking (fuel + 1) =>
    match s.plan.nextOpen? with
    | none => .go .closing
    | some task =>
      if s.spending.isTimedOut s.now then .go .dropping else .go (.working task rounds fuel)
  | .working task 0 fuel =>
    if isSettled s.plan task then .go (.looking fuel)
    else
      match s.plan.setStatus? task.taskId .failed with
      | .ok plan => .replan plan (.looking fuel)
      | .error e => .halt (.failed (.plan e))
  | .working task (left + 1) fuel =>
    if isSettled s.plan task then .go (.looking fuel)
    else if s.spending.isTimedOut s.now then .go (.looking fuel)
    else .ask (taskAsk env task) id (fun _ => .working task left fuel) .dropping
  | .dropping =>
    if s.plan.hasOpen then .replan s.plan.cancelOpen .closing else .go .closing
  | .closing => .mark "summary" .summarizing
  | .summarizing =>
    if s.spending.modelIsSpent then .go .exhausted
    else .ask (summaryAsk env.agent) (List.take 0) (fun _ => .done) .exhausted
  | .exhausted => .tell budgetExhaustedMessage .done
  | .done => .go .done

/-- The moves with the reasons for them. -/
inductive Decides (env : Env) (rounds : Nat) (s : State) : Station → Move → Prop
  | decide : Decides env rounds s .deciding (.ask (oneshotAsk env) (List.take 1)
      (fun calls => if calls.isEmpty then .done else .summarizing) .summarizing)
  | noStep : Decides env rounds s (.steps 0) (.go .summarizing)
  | lateStep {left : Nat} (hlate : s.spending.isTimedOut s.now = true) :
      Decides env rounds s (.steps (left + 1)) (.go .summarizing)
  | step {left : Nat} (hearly : s.spending.isTimedOut s.now = false) :
      Decides env rounds s (.steps (left + 1)) (.ask (reactAsk env) (List.take 1)
        (fun calls => if calls.isEmpty then .done else .steps left) .summarizing)
  | begin {fuel : Nat} : Decides env rounds s (.opening fuel) (.mark "plan" (.planning fuel))
  | seeded {fuel : Nat} (hopen : s.plan.hasOpen = true) :
      Decides env rounds s (.planning fuel) (.go (.executing fuel))
  | latePlan {fuel : Nat} (hclosed : s.plan.hasOpen = false)
      (hlate : s.spending.isTimedOut s.now = true) :
      Decides env rounds s (.planning fuel) (.go (.executing fuel))
  | plan {fuel : Nat} (hclosed : s.plan.hasOpen = false)
      (hearly : s.spending.isTimedOut s.now = false) :
      Decides env rounds s (.planning fuel)
        (.ask (planAsk env) id (fun _ => .executing fuel) (.executing fuel))
  | execute {fuel : Nat} :
      Decides env rounds s (.executing fuel) (.mark "execute" (.looking fuel))
  | noFuel : Decides env rounds s (.looking 0) (.halt .cut)
  | noTask {fuel : Nat} (hnone : s.plan.nextOpen? = none) :
      Decides env rounds s (.looking (fuel + 1)) (.go .closing)
  | lateTask {fuel : Nat} {task : PlanTask} (htask : s.plan.nextOpen? = some task)
      (hlate : s.spending.isTimedOut s.now = true) :
      Decides env rounds s (.looking (fuel + 1)) (.go .dropping)
  | task {fuel : Nat} {task : PlanTask} (htask : s.plan.nextOpen? = some task)
      (hearly : s.spending.isTimedOut s.now = false) :
      Decides env rounds s (.looking (fuel + 1)) (.go (.working task rounds fuel))
  | settled {task : PlanTask} {left fuel : Nat} (hsettled : isSettled s.plan task = true) :
      Decides env rounds s (.working task left fuel) (.go (.looking fuel))
  | giveUp {task : PlanTask} {fuel : Nat} {plan : Plan} (hopen : isSettled s.plan task = false)
      (hplan : s.plan.setStatus? task.taskId .failed = .ok plan) :
      Decides env rounds s (.working task 0 fuel) (.replan plan (.looking fuel))
  | lateRound {task : PlanTask} {left fuel : Nat} (hopen : isSettled s.plan task = false)
      (hlate : s.spending.isTimedOut s.now = true) :
      Decides env rounds s (.working task (left + 1) fuel) (.go (.looking fuel))
  | round {task : PlanTask} {left fuel : Nat} (hopen : isSettled s.plan task = false)
      (hearly : s.spending.isTimedOut s.now = false) :
      Decides env rounds s (.working task (left + 1) fuel)
        (.ask (taskAsk env task) id (fun _ => .working task left fuel) .dropping)
  | drop (hopen : s.plan.hasOpen = true) :
      Decides env rounds s .dropping (.replan s.plan.cancelOpen .closing)
  | noOpen (hclosed : s.plan.hasOpen = false) : Decides env rounds s .dropping (.go .closing)
  | close : Decides env rounds s .closing (.mark "summary" .summarizing)
  | spent (hspent : s.spending.modelIsSpent = true) :
      Decides env rounds s .summarizing (.go .exhausted)
  | summary (hunspent : s.spending.modelIsSpent = false) :
      Decides env rounds s .summarizing
        (.ask (summaryAsk env.agent) (List.take 0) (fun _ => .done) .exhausted)
  | apology : Decides env rounds s .exhausted (.tell budgetExhaustedMessage .done)
  | done : Decides env rounds s .done (.go .done)

theorem decides (env : Env) (rounds : Nat) (s : State) (c : Station) :
    Decides env rounds s c (c.move env rounds s) := by
  cases c with
  | deciding => exact .decide
  | steps left =>
    cases left with
    | zero => exact .noStep
    | succ left =>
      simp only [Station.move]
      split
      · exact .lateStep ‹_›
      · exact .step (Bool.eq_false_iff.mpr ‹_›)
  | opening fuel => exact .begin
  | planning fuel =>
    simp only [Station.move]
    split
    · exact .seeded ‹_›
    · have hclosed : s.plan.hasOpen = false := Bool.eq_false_iff.mpr ‹_›
      split
      · exact .latePlan hclosed ‹_›
      · exact .plan hclosed (Bool.eq_false_iff.mpr ‹_›)
  | executing fuel => exact .execute
  | looking fuel =>
    cases fuel with
    | zero => exact .noFuel
    | succ fuel =>
      simp only [Station.move]
      split
      · exact .noTask ‹_›
      · split
        · exact .lateTask ‹_› ‹_›
        · exact .task ‹_› (Bool.eq_false_iff.mpr ‹_›)
  | working task left fuel =>
    cases left with
    | zero =>
      simp only [Station.move]
      split
      · exact .settled ‹_›
      · have hopen : isSettled s.plan task = false := Bool.eq_false_iff.mpr ‹_›
        -- A task that is open can be given up.
        obtain ⟨plan, hplan⟩ := setStatus?_of_open hopen .failed
        rw [hplan]
        exact .giveUp hopen hplan
    | succ left =>
      simp only [Station.move]
      split
      · exact .settled ‹_›
      · have hopen : isSettled s.plan task = false := Bool.eq_false_iff.mpr ‹_›
        split
        · exact .lateRound hopen ‹_›
        · exact .round hopen (Bool.eq_false_iff.mpr ‹_›)
  | dropping =>
    simp only [Station.move]
    split
    · exact .drop ‹_›
    · exact .noOpen (Bool.eq_false_iff.mpr ‹_›)
  | closing => exact .close
  | summarizing =>
    simp only [Station.move]
    split
    · exact .spent ‹_›
    · exact .summary (Bool.eq_false_iff.mpr ‹_›)
  | exhausted => exact .apology
  | done => exact .done

/-- Makes a move. -/
def Move.run (env : Env) : Move → RunM Station
  | .go next => return next
  | .ask wanted keep next denied => do
    match ← callModel env wanted with
    | none => return denied
    | some turn =>
      commit { turn with calls := keep turn.calls }
      dispatchAll env (keep turn.calls)
      return next (keep turn.calls)
  | .mark label next => do
    stageMarker env label
    return next
  | .replan plan next => do
    modify fun s => { s with plan := plan }
    showPlan env
    return next
  | .tell text next => do
    say env text
    return next
  | .halt h => throw h

/-- Makes the next move. -/
def advance (env : Env) (rounds : Nat) (c : Station) : RunM Station := do
  let s ← get
  (c.move env rounds s).run env

/-- Whether a station is one of the task loop. -/
def Station.inTaskLoop : Station → Bool
  | .looking _ => true
  | .working _ _ _ => true
  | .dropping => true
  | _ => false

/-- What is left of the task loop at a station of it. -/
def taskLoop (env : Env) (rounds : Nat) : Station → RunM Unit
  | .looking fuel => execute env rounds fuel
  | .working task left fuel => do
    if ← workOn env task left then execute env rounds fuel else cancelOpen env
  | .dropping => cancelOpen env
  | _ => return ()

/-- What is left of the stages at a station. -/
def rest (env : Env) (rounds : Nat) : Station → RunM Unit
  | .deciding => oneshot env
  | .steps left => react env left
  | .opening fuel => planExecute env rounds fuel
  | .planning fuel => do
    if !(← get).plan.hasOpen then
      if !(← isTimedOut) then makePlan env
    stageMarker env "execute"
    execute env rounds fuel
    stageMarker env "summary"
    summarize env
  | .executing fuel => do
    stageMarker env "execute"
    execute env rounds fuel
    stageMarker env "summary"
    summarize env
  | .summarizing => summarize env
  | .exhausted => say env budgetExhaustedMessage
  | .done => return ()
  | c => do
    taskLoop env rounds c
    stageMarker env "summary"
    summarize env

/-- Where the stages begin. -/
def Runner.station (fuel : Nat) : Runner → Station
  | .oneshot => .deciding
  | .react maxSteps => .steps maxSteps
  | .planExecute _ => .opening fuel

/-- The rounds for each task. -/
def Runner.rounds : Runner → Nat
  | .planExecute maxTaskRounds => maxTaskRounds
  | _ => 0

theorem stages_eq_rest (env : Env) (runner : Runner) (fuel : Nat) :
    runner.stages env fuel = rest env runner.rounds (runner.station fuel) := by
  cases runner <;> rfl

/-! ## The moves are those of the stages -/

section Equations

variable {α β : Type} {env : Env} {rounds : Nat} {s : State}

theorem RunM.ext {x y : RunM α} (h : ∀ s, x.run s = y.run s) : x = y := funext h

theorem run_get_bind (f : State → RunM α) : (get >>= f : RunM α).run s = (f s).run s := rfl

theorem bind_run_congr {x : RunM β} {f g : β → RunM α} (h : ∀ b, f b = g b) :
    (x >>= f).run s = (x >>= g).run s :=
  congrArg (fun y : RunM α => y.run s) (bind_congr h)

theorem execute_advance (fuel : Nat) : execute env rounds fuel =
    advance env rounds (.looking fuel) >>= taskLoop env rounds := by
  refine RunM.ext fun s => ?_
  cases fuel with
  | zero => rfl
  | succ fuel =>
    simp only [execute, advance, Station.move, isTimedOut, bind_assoc, run_get_bind]
    cases s.plan.nextOpen? with
    | none => rfl
    | some task =>
      simp only [pure_bind, run_get_bind]
      cases s.spending.isTimedOut s.now <;> rfl

theorem workOn_advance (task : PlanTask) (left fuel : Nat) :
    taskLoop env rounds (.working task left fuel) =
      advance env rounds (.working task left fuel) >>= taskLoop env rounds := by
  refine RunM.ext fun s => ?_
  cases left with
  | zero =>
    simp only [taskLoop, workOn, giveUp, advance, Station.move, bind_assoc, run_get_bind]
    cases isSettled s.plan task with
    | true => rfl
    | false =>
      simp only [bind_assoc, pure_bind, run_get_bind, Bool.false_eq_true, if_false]
      cases s.plan.setStatus? task.taskId .failed with
      | error e => rfl
      | ok plan =>
        simp only [Move.run, bind_assoc, pure_bind]
        rfl
  | succ left =>
    simp only [taskLoop, workOn, advance, Station.move, isTimedOut, bind_assoc, run_get_bind]
    cases isSettled s.plan task with
    | true => rfl
    | false =>
      simp only [bind_assoc, pure_bind, run_get_bind, Bool.false_eq_true, if_false]
      cases s.spending.isTimedOut s.now with
      | true => rfl
      | false =>
        simp only [Bool.false_eq_true, if_false, Move.run, bind_assoc]
        refine bind_run_congr fun answer => ?_
        cases answer with
        | none => rfl
        | some turn =>
          simp only [bind_assoc, pure_bind]
          rfl

theorem cancelOpen_advance : cancelOpen env =
    advance env rounds .dropping >>= taskLoop env rounds := by
  refine RunM.ext fun s => ?_
  simp only [cancelOpen, advance, Station.move, bind_assoc, run_get_bind]
  cases s.plan.hasOpen with
  | true =>
    simp only [if_true, Move.run, bind_assoc, pure_bind, taskLoop, bind_pure_unit]
    rfl
  | false => rfl

/-- The task loop is what its moves make of it. -/
theorem taskLoop_eq {c : Station} (hc : c.inTaskLoop = true) :
    taskLoop env rounds c = advance env rounds c >>= taskLoop env rounds := by
  cases c with
  | looking fuel => exact execute_advance fuel
  | working task left fuel => exact workOn_advance task left fuel
  | dropping => exact cancelOpen_advance
  | _ => cases hc

/-- Where a move leads to, whatever comes of it. -/
def Move.LeadsTo (P : Station → Prop) : Move → Prop
  | .go next => P next
  | .ask _ _ next denied => (∀ calls, P (next calls)) ∧ P denied
  | .mark _ next => P next
  | .replan _ next => P next
  | .tell _ next => P next
  | .halt _ => True

theorem Move.run_congr {P : Station → Prop} {m : Move} {f g : Station → RunM α} (hm : m.LeadsTo P)
    (h : ∀ c, P c → f c = g c) : (m.run env >>= f).run s = (m.run env >>= g).run s := by
  cases m with
  | go next => simp only [Move.run, pure_bind, h next hm]
  | ask wanted keep next denied =>
    simp only [Move.run, bind_assoc]
    refine bind_run_congr fun answer => ?_
    cases answer with
    | none => simp only [pure_bind, h denied hm.2]
    | some turn => simp only [bind_assoc, pure_bind, h _ (hm.1 _)]
  | mark label next => simp only [Move.run, bind_assoc, pure_bind, h next hm]
  | replan plan next => simp only [Move.run, bind_assoc, pure_bind, h next hm]
  | tell text next => simp only [Move.run, bind_assoc, pure_bind, h next hm]
  | halt halt => rfl

/-- What holds of the end and of where a run goes on with calls holds of where a decision leads. -/
theorem Station.decided {P : Station → Prop} {calls : List Call} {c : Station}
    (hdone : calls = [] → P .done) (hgo : P c) : P (if calls.isEmpty then .done else c) := by
  split
  · exact hdone (List.isEmpty_iff.mp ‹_›)
  · exact hgo

/-- The task loop is left for the summary only. -/
theorem taskLoop_leads {c : Station} {m : Move} (hc : c.inTaskLoop = true)
    (hd : Decides env rounds s c m) : m.LeadsTo fun c' => c'.inTaskLoop = true ∨ c' = .closing := by
  cases hd with
  | noFuel => trivial
  | noTask hnone => exact Or.inr rfl
  | round hopen hearly => exact ⟨fun _ => Or.inl rfl, Or.inl rfl⟩
  | drop hopen => exact Or.inr rfl
  | noOpen hclosed => exact Or.inr rfl
  | lateTask => exact Or.inl rfl
  | task => exact Or.inl rfl
  | settled => exact Or.inl rfl
  | giveUp => exact Or.inl rfl
  | lateRound => exact Or.inl rfl
  | _ => cases hc

/-- A decision without calls is the end, any other goes on with them. -/
theorem decided_eq (calls : List Call) (c : Station) :
    (if !calls.isEmpty then do
      dispatchAll env calls
      rest env rounds c
    else return ()) = (do
      dispatchAll env calls
      rest env rounds (if calls.isEmpty then .done else c)) := by
  cases calls <;> rfl

theorem oneshot_advance : oneshot env = advance env rounds .deciding >>= rest env rounds := by
  refine RunM.ext fun s => ?_
  simp only [oneshot, advance, Station.move, Move.run, bind_assoc, run_get_bind]
  refine bind_run_congr fun answer => ?_
  cases answer with
  | none => rfl
  | some turn =>
    simp only [bind_assoc, pure_bind]
    exact bind_congr fun _ => decided_eq (turn.calls.take 1) .summarizing

theorem react_advance (left : Nat) :
    react env left = advance env rounds (.steps left) >>= rest env rounds := by
  refine RunM.ext fun s => ?_
  cases left with
  | zero => rfl
  | succ left =>
    simp only [react, advance, Station.move, isTimedOut, bind_assoc, pure_bind, run_get_bind]
    cases s.spending.isTimedOut s.now with
    | true => rfl
    | false =>
      simp only [Bool.false_eq_true, if_false, Move.run, bind_assoc]
      refine bind_run_congr fun answer => ?_
      cases answer with
      | none => rfl
      | some turn =>
        simp only [bind_assoc, pure_bind]
        exact bind_congr fun _ => decided_eq (turn.calls.take 1) (.steps left)

theorem planning_advance (fuel : Nat) : rest env rounds (.planning fuel) =
    advance env rounds (.planning fuel) >>= rest env rounds := by
  refine RunM.ext fun s => ?_
  simp only [rest, advance, Station.move, isTimedOut, bind_assoc, run_get_bind]
  cases s.plan.hasOpen with
  | true => rfl
  | false =>
    simp only [Bool.not_false, Bool.false_eq_true, if_true, if_false, pure_bind, run_get_bind]
    cases s.spending.isTimedOut s.now with
    | true => rfl
    | false =>
      simp only [Bool.not_false, Bool.false_eq_true, if_true, if_false, makePlan, Move.run,
        bind_assoc]
      refine bind_run_congr fun answer => ?_
      cases answer with
      | none => rfl
      | some turn =>
        simp only [bind_assoc, pure_bind]
        rfl

theorem summarize_advance : summarize env =
    advance env rounds .summarizing >>= rest env rounds := by
  refine RunM.ext fun s => ?_
  simp only [summarize, advance, Station.move, bind_assoc, run_get_bind]
  cases s.spending.modelIsSpent with
  | true => rfl
  | false =>
    simp only [Bool.false_eq_true, if_false, Move.run, bind_assoc]
    refine bind_run_congr fun answer => ?_
    cases answer with
    | none => rfl
    | some turn =>
      simp only [bind_assoc, pure_bind]
      exact (bind_pure_unit (x := commit (turn.keep 0))).symm

/-- The stages are what their moves make of them. -/
theorem rest_eq (c : Station) : rest env rounds c = advance env rounds c >>= rest env rounds := by
  have loops {c : Station} (h : c.inTaskLoop = true) : (do
      taskLoop env rounds c
      stageMarker env "summary"
      summarize env) = advance env rounds c >>= rest env rounds := by
    refine RunM.ext fun s => ?_
    simp only [taskLoop_eq h, advance, bind_assoc, run_get_bind]
    refine Move.run_congr (taskLoop_leads h (decides env rounds s c)) fun c' hc' => ?_
    rcases hc' with hc' | rfl
    · cases c' with
      | looking => rfl
      | working => rfl
      | dropping => rfl
      | _ => cases hc'
    · rfl
  have marks (label : String) (c : Station) : (do
      stageMarker env label
      rest env rounds c) = (do
      let _ ← get
      (Move.mark label c).run env) >>= rest env rounds := by
    refine RunM.ext fun s => ?_
    simp only [Move.run, bind_assoc, pure_bind, run_get_bind]
  cases c with
  | deciding => exact oneshot_advance
  | steps left => exact react_advance left
  | opening fuel => exact marks "plan" (.planning fuel)
  | planning fuel => exact planning_advance fuel
  | executing fuel => exact marks "execute" (.looking fuel)
  | looking fuel => exact loops rfl
  | working task left fuel => exact loops rfl
  | dropping => exact loops rfl
  | closing => exact marks "summary" .summarizing
  | summarizing => exact summarize_advance
  | exhausted =>
    refine RunM.ext fun s => ?_
    simp only [rest, advance, Station.move, Move.run, bind_assoc, pure_bind, run_get_bind,
      bind_pure_unit]
  | done => rfl

end Equations

/-! ## Where a run passes -/

/-- The next move leads from one station and state to others. -/
def Advances (env : Env) (rounds : Nat) (p q : Station × State) : Prop :=
  (advance env rounds p.1).run p.2 = (.ok q.1, q.2)

/-- A run that comes to a station in a state comes to others from there. -/
abbrev Passes (env : Env) (rounds : Nat) : Station × State → Station × State → Prop :=
  Relation.ReflTransGen (Advances env rounds)

/-- The same within a part of the stages. -/
abbrev PassesIn (part : Station → Bool) (env : Env) (rounds : Nat) :
    Station × State → Station × State → Prop :=
  Relation.ReflTransGen fun p q => part p.1 = true ∧ Advances env rounds p q

section Passing

variable {env : Env} {rounds : Nat} {c c' : Station} {s s' : State} {part : Station → Bool}
  {p q : Station × State}

/-- What every step hands on holds wherever the steps lead from where it holds. -/
theorem handed_on {r : Station × State → Station × State → Prop} {I : Station → State → Prop}
    (h : Relation.ReflTransGen r p (c', s')) (hstart : I p.1 p.2)
    (hstep : ∀ p' q, Relation.ReflTransGen r p p' → I p'.1 p'.2 → r p' q → I q.1 q.2) :
    I c' s' := by
  have every : ∀ q, Relation.ReflTransGen r p q → I q.1 q.2 := by
    intro q hq
    induction hq with
    | refl => exact hstart
    | @tail p' q hbefore hadv ih => exact hstep p' q hbefore ih hadv
  exact every (c', s') h

theorem PassesIn.passes (h : PassesIn part env rounds p q) : Passes env rounds p q :=
  Relation.ReflTransGen.mono (fun _ _ h => h.2) _ _ h

theorem Move.leads {P : Station → Prop} {m : Move} (hm : m.LeadsTo P)
    (h : (m.run env).run s = (.ok c, s')) : P c := by
  have anyhow {α : Type} {x : RunM α} {f : α → RunM Station} {s : State}
      (hf : ∀ a s', Ensures (f a) s' (fun c _ => P c) fun _ _ => True) :
      Ensures (x >>= f) s (fun c _ => P c) fun _ _ => True :=
    ensures_bind.mpr (.of_forall hf fun _ _ => trivial)
  have ensured : Ensures (m.run env) s (fun c _ => P c) (fun _ _ => True) := by
    cases m with
    | go next => exact hm
    | ask wanted keep next denied =>
      refine anyhow fun answer s₁ => ?_
      cases answer with
      | none => exact hm.2
      | some turn => exact anyhow fun _ _ => anyhow fun _ _ => hm.1 _
    | mark label next => exact anyhow fun _ _ => hm
    | replan plan next => exact anyhow fun _ _ => anyhow fun _ _ => hm
    | tell text next => exact anyhow fun _ _ => hm
    | halt halt => trivial
  exact ensured.of_run h

/-- How much a run can still do at a station: every move leaves less of it. -/
def Station.size (rounds : Nat) : Station → Nat
  | .done => 0
  | .exhausted => 1
  | .summarizing => 2
  | .closing => 3
  | .dropping => 4
  | .looking fuel => 5 + fuel * (rounds + 2)
  | .working _ left fuel => 6 + fuel * (rounds + 2) + left
  | .executing fuel => 6 + fuel * (rounds + 2)
  | .planning fuel => 7 + fuel * (rounds + 2)
  | .opening fuel => 8 + fuel * (rounds + 2)
  | .deciding => 3
  | .steps left => 3 + left

theorem move_smaller {m : Move} (hc : c ≠ .done) (hd : Decides env rounds s c m) :
    m.LeadsTo fun c' => c'.size rounds < c.size rounds := by
  have decided (calls : List Call) {d : Station} {n : Nat} (hd : d.size rounds < n) :
      (if calls.isEmpty then Station.done else d).size rounds < n :=
    Station.decided (P := fun d => d.size rounds < n) (fun _ => Nat.zero_lt_of_lt hd) hd
  cases hd with
  | decide => exact ⟨fun calls => decided calls (Nat.lt_succ_self 2), Nat.lt_succ_self 2⟩
  | step =>
    refine ⟨fun calls => decided calls (Nat.lt_succ_self _), ?_⟩
    simp only [Station.size]
    omega
  | plan => exact ⟨fun _ => Nat.add_lt_add_right (by decide) _, Nat.add_lt_add_right (by decide) _⟩
  | round => exact ⟨fun _ => Nat.lt_succ_self _, by simp only [Station.size]; omega⟩
  | summary => exact ⟨fun _ => Nat.zero_lt_two, Nat.lt_succ_self 1⟩
  | noFuel => trivial
  | done => exact absurd rfl hc
  | _ =>
    simp only [Move.LeadsTo, Station.size, Nat.succ_mul]
    omega

/-- How a part of a run comes out, as its moves tell: it passes stations of the part until it leaves
the part or a move halts it. -/
theorem passes_of_run (part : Station → Bool) {f : Station → RunM Unit}
    (hdone : part .done = false) (hstep : ∀ c, part c = true → f c = advance env rounds c >>= f)
    {r : Except Halt Unit} (hrun : (f c).run s = (r, s')) :
    ∃ c₁ s₁, PassesIn part env rounds (c, s) (c₁, s₁) ∧
      (part c₁ = false ∧ (f c₁).run s₁ = (r, s') ∨
        part c₁ = true ∧ ∃ halt, (advance env rounds c₁).run s₁ = (.error halt, s') ∧
          r = .error halt) := by
  induction hn : c.size rounds using Nat.strongRecOn generalizing c s with
  | ind n ih =>
    cases hpart : part c with
    | false => exact ⟨c, s, .refl, Or.inl ⟨hpart, hrun⟩⟩
    | true =>
      rw [hstep c hpart, run_bind] at hrun
      rcases hadv : (advance env rounds c).run s with ⟨halt | c₂, s₂⟩
      · rw [hadv] at hrun
        obtain ⟨rfl, rfl⟩ := Prod.mk.inj hrun
        exact ⟨c, s, .refl, Or.inr ⟨hpart, halt, hadv, rfl⟩⟩
      · rw [hadv] at hrun
        have hc : c ≠ .done := by
          rintro rfl
          exact absurd hpart (by simp [hdone])
        have smaller : c₂.size rounds < c.size rounds :=
          Move.leads (move_smaller hc (decides ..)) hadv
        obtain ⟨c₁, s₁, passes, hend⟩ := ih _ (hn ▸ smaller) hrun rfl
        exact ⟨c₁, s₁, .head (b := (c₂, s₂)) ⟨hpart, hadv⟩ passes, hend⟩

/-- The stages come out done or are halted by a move. -/
theorem passes_of_rest {r : Except Halt Unit} (hrun : (rest env rounds c).run s = (r, s')) :
    Passes env rounds (c, s) (.done, s') ∧ r = .ok () ∨
      ∃ c₁ s₁ halt, Passes env rounds (c, s) (c₁, s₁) ∧
        (advance env rounds c₁).run s₁ = (.error halt, s') ∧ r = .error halt := by
  obtain ⟨c₁, s₁, passes, ⟨hdone, hend⟩ | ⟨-, halt, hend, hr⟩⟩ :=
    passes_of_run (fun c => c != .done) rfl (fun c _ => rest_eq c) hrun
  · obtain rfl : c₁ = .done := by simpa using hdone
    obtain ⟨rfl, rfl⟩ := Prod.mk.inj hend
    exact Or.inl ⟨passes.passes, rfl⟩
  · exact Or.inr ⟨c₁, s₁, halt, passes.passes, hend, hr⟩

/-- The task loop comes out at the summary or is halted by a move. -/
theorem passes_of_taskLoop {r : Except Halt Unit} (hc : c.inTaskLoop = true)
    (hrun : (taskLoop env rounds c).run s = (r, s')) :
    PassesIn Station.inTaskLoop env rounds (c, s) (.closing, s') ∧ r = .ok () ∨
      ∃ c₁ s₁ halt, PassesIn Station.inTaskLoop env rounds (c, s) (c₁, s₁) ∧
        c₁.inTaskLoop = true ∧ (advance env rounds c₁).run s₁ = (.error halt, s') ∧
        r = .error halt := by
  obtain ⟨c₁, s₁, passes, ⟨hleft, hend⟩ | ⟨hin, halt, hend, hr⟩⟩ :=
    passes_of_run Station.inTaskLoop rfl (fun c hc => taskLoop_eq hc) hrun
  · have closing : c₁ = .closing := by
      rcases passes.cases_tail with hsame | ⟨⟨c₂, s₂⟩, -, hin, hadv⟩
      · obtain ⟨rfl, rfl⟩ := Prod.mk.inj hsame
        exact absurd hc (by simp [hleft])
      · rcases Move.leads (taskLoop_leads hin (decides ..)) hadv with hin' | hclosing
        · exact absurd hin' (by simp [hleft])
        · exact hclosing
    subst closing
    obtain ⟨rfl, rfl⟩ := Prod.mk.inj hend
    exact Or.inl ⟨passes, rfl⟩
  · exact Or.inr ⟨c₁, s₁, halt, passes, hin, hend, hr⟩

/-- Where a run is after a number of moves, if none of them halts it. -/
def walk (env : Env) (rounds : Nat) : Nat → Station × State → Station × State
  | 0, p => p
  | n + 1, p =>
    match (advance env rounds p.1).run p.2 with
    | (.ok c, s) => walk env rounds n (c, s)
    | (.error _, _) => p

theorem passes_walk (n : Nat) (p : Station × State) :
    Passes env rounds p (walk env rounds n p) := by
  induction n generalizing p with
  | zero => exact .refl
  | succ n ih =>
    unfold walk
    split
    · rename_i c s hadv
      exact .head (b := (c, s)) hadv (ih (c, s))
    · exact .refl

/-- What is left to do where a run passes comes out as it does from the start. -/
theorem Passes.rest_run (h : Passes env rounds p q) :
    (rest env rounds p.1).run p.2 = (rest env rounds q.1).run q.2 := by
  induction h with
  | refl => rfl
  | tail _ hadv ih =>
    rw [ih, rest_eq, run_bind, show (advance env rounds _).run _ = _ from hadv]

end Passing

end AgentRun.Run
