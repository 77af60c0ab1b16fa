import AgentRun.Proofs.PlanGrowth
import AgentRun.Proofs.WholeRun

/-!
# The plans that are shown

The plan of a run is changed by calls of the plan tools, by giving a task up and by dropping what is
open. Each change lets the plan grow and is shown at once, so the plans that the client is shown are
the whole history of the plan: each continues those before it, and the last is the plan at the end.
-/

namespace AgentRun.Run

/-- The plans of a trail, from a given one on: each continues those before it, and the last is the
present plan. -/
structure Evolving (seed : Plan) (t : List Entry) (plan : Plan) : Prop where
  ordered : (seed :: plansShown t).Pairwise Plan.GrowsTo
  latest : plan = (plansShown t).getLast?.getD seed
  grown : ∀ q ∈ seed :: plansShown t, q.GrowsTo plan

variable {env : Env} {mode : AgentMode} {seed plan plan' : Plan} {t u : List Entry} {l l' : Ledger}
  {p q : Point}

namespace Evolving

theorem start (seed : Plan) : Evolving seed [] seed := by
  refine ⟨List.pairwise_singleton _ _, rfl, fun q hq => ?_⟩
  obtain rfl := List.mem_singleton.mp hq
  exact .refl q

/-- Entries that show no plan. -/
theorem unchanged (h : Evolving seed t plan) (hu : plansShown u = []) :
    Evolving seed (t ++ u) plan := by
  have same : plansShown (t ++ u) = plansShown t := by simp [hu]
  exact ⟨same ▸ h.ordered, same ▸ h.latest, same ▸ h.grown⟩

/-- A change of the plan that is shown. -/
theorem changed (h : Evolving seed t plan) (hu : plansShown u = [plan'])
    (hgrows : plan.GrowsTo plan') : Evolving seed (t ++ u) plan' := by
  have more : plansShown (t ++ u) = plansShown t ++ [plan'] := by simp [hu]
  have reaches : ∀ q ∈ seed :: plansShown t, q.GrowsTo plan' :=
    fun q hq => (h.grown q hq).trans hgrows
  refine ⟨?_, by simp [more], fun q hq => ?_⟩
  · rw [more, ← List.cons_append]
    refine List.pairwise_append.mpr ⟨h.ordered, List.pairwise_singleton _ _, fun q hq r hr => ?_⟩
    obtain rfl := List.mem_singleton.mp hr
    exact reaches q hq
  · rw [more, ← List.cons_append] at hq
    rcases List.mem_append.mp hq with hq | hq
    · exact reaches q hq
    · obtain rfl := List.mem_singleton.mp hq
      exact .refl q

end Evolving

/-! ## From act to act -/

theorem AnswerTrail.plans_nil {supply : Supply} {request : ModelRequest} {turn : Turn}
    (h : AnswerTrail supply request u turn) : plansShown u = [] := by
  obtain ⟨v, rfl, hv, -⟩ := h.eq_append
  rw [plansShown_append, plansShown_quiet hv.quiet]
  rfl

theorem serving_plans {call : Call} (hu : ∀ e ∈ u, e.Serves call) :
    plansShown (.dispatch call :: u) = [] :=
  (plansShown_quiet fun e he => (hu e he).quiet : plansShown u = [])

/-- A call that is answered leaves the plan or shows how it changed. -/
theorem Evolving.dispatch {call : Call} (h : Evolving seed t l.plan) (hu : Answered call l u l') :
    Evolving seed (t ++ u) l'.plan := by
  cases hu with
  | answered args result hu hshown =>
    have served := serving_plans hu
    cases hshown with
    | same => exact h.unchanged (by rw [plansShown_append, served]; rfl)
    | changed happly =>
      exact h.changed (by rw [plansShown_append, served]; rfl) (PlanTool.apply_grows happly)

theorem act_evolving (h : Evolving seed p.trail p.ledger.plan) (act : Act env mode p q) :
    Evolving seed q.trail q.ledger.plan := by
  cases act with
  | answer hask hadmitted hu => exact h.unchanged hu.plans_nil
  | dispatch hv => exact h.dispatch hv
  | say block _ => exact h.unchanged rfl
  | mark label => exact h.unchanged rfl
  | giveUp taskId hplan => exact h.changed rfl (Plan.setStatus?_grows hplan)
  | cancel _ => exact h.changed rfl (Plan.cancelOpen_grows _)

theorem acts_evolving (h : Evolving seed p.trail p.ledger.plan)
    (acts : Relation.ReflTransGen (Act env mode) p q) : Evolving seed q.trail q.ledger.plan := by
  induction acts with
  | refl => exact h
  | tail _ act ih => exact act_evolving ih act

/-- A run whose client was there shows every change of its plan, also when it breaks off. -/
theorem came_evolving {r : Except Halt Unit} (h : Evolving seed p.trail p.ledger.plan)
    (came : Came env mode p r t l) (hthere : r ≠ .error (.failed .consumerGone)) :
    Evolving seed t l.plan := by
  cases came with
  | through acts _ => exact acts_evolving h acts
  | broke acts hb =>
    have hq := acts_evolving h acts
    cases hb with
    | model hask hadmitted hu hh => exact hq.unchanged (plansShown_quiet hu.quiet)
    | call hv hh =>
      cases hv with
      | unanswered hu => exact hq.unchanged (serving_plans hu)
    | cut => exact hq
    | gone hv => exact absurd rfl hthere

theorem plansShown_endingOf {block : String} {r : Except Halt Unit} :
    plansShown ((endingOf block r).map .event) = [] := by
  refine plansShown_quiet fun e he => ?_
  obtain ⟨f, hf, rfl⟩ := List.mem_map.mp he
  rcases mem_endingOf hf with ⟨_, rfl⟩ | ⟨_, rfl⟩
  · rfl
  · rfl

theorem not_init_of_settled (h : plan.hasOpen = false) :
    ∀ task ∈ plan.tasks, task.status ≠ .init := by
  intro task htask hinit
  have hclosed : ¬task.isOpen = true := List.any_eq_false.mp h task htask
  exact hclosed (by rw [PlanTask.isOpen, hinit]; rfl)

/-- The plans that a client that keeps reading is shown, after the plan that the run starts with:
each lets those before it grow, the last of them is the plan at the end, and no task of a plan that
was worked off is open. -/
theorem shown_plans_evolve (engine : Engine) (turn : UserTurn) (world : World) (fuel : Nat)
    (hreads : turn.client.KeepsReading) :
    let o := engine.run turn world fuel
    let seed := turn.plan.getD ⟨IdKind.plan.mint engine.supply (world.minted + 1), []⟩
    let updates := o.delivered.filterMap Event.plan?
    (seed :: updates).Pairwise Plan.GrowsTo ∧
    o.final.plan = updates.getLast?.getD seed ∧
    (turn.agent.mode = .planExecute → o.stages = .ok () →
      ∀ task ∈ o.final.plan.tasks, task.status ≠ .init) := by
  intro o seed updates
  obtain ⟨t, l, a, h⟩ := ran engine turn world fuel
  obtain ⟨texts, minted, hended, -⟩ := h.final_ended hreads
  have evolving : Evolving seed t l.plan := came_evolving (.start _) h.came (h.read hreads)
  have hplan : o.final.plan = l.plan := congrArg Ledger.plan hended.ledger
  have hupdates : updates = plansShown t := by
    show o.delivered.filterMap Event.plan? = _
    rw [delivered_eq_events hreads, ← State.eventsOf_trail, hended.trail]
    show plansShown (t ++ _) = _
    rw [plansShown_append, plansShown_endingOf, List.append_nil]
  rw [hupdates, hplan]
  refine ⟨evolving.ordered, evolving.latest, fun hmode hok => ?_⟩
  have came := h.came
  rw [show (engine.run turn world fuel).stages = .ok () from hok] at came
  cases came with
  | through acts hsettled => exact not_init_of_settled (hsettled hmode)

/-- The name of the first task that a run adds. -/
def firstTask : String := IdKind.task.mint (Uuid.timed 0) 2

/-- A plan of one task, its outcome and a final answer. -/
def onePlannedTask : List Reply :=
  [Script.ofChunks (Script.calls [("c1", PlanTool.addTasks.name,
      .obj [("tasks", .arr [.str "Look it up"])])]) .done,
    Script.ofChunks (Script.calls [("c2", PlanTool.updateTask.name,
      .obj [("status", .str "completed"), ("task_id", .str firstTask)])]) .done,
    Script.ofChunks (Script.texts ["Done."]) .done]

/-- A run that plans one task and does it shows two plans, of which the first grew to the second. -/
theorem one_planned_task_evolves : ∃ added done,
    ((rehearsal onePlannedTask).run (firstTurn .planExecute) (.new 1) 2).delivered.filterMap
      Event.plan? = [added, done] ∧
    added.GrowsTo done ∧
    ((rehearsal onePlannedTask).run (firstTurn .planExecute) (.new 1) 2).final.plan = done ∧
    ∀ task ∈ done.tasks, task.status ≠ .init := by
  have updates : ((rehearsal onePlannedTask).run (firstTurn .planExecute) (.new 1)
      2).delivered.filterMap Event.plan? =
        [⟨IdKind.plan.mint (Uuid.timed 0) 1, [⟨firstTask, "Look it up", .init⟩]⟩,
          ⟨IdKind.plan.mint (Uuid.timed 0) 1, [⟨firstTask, "Look it up", .completed⟩]⟩] := by
    decide +kernel
  obtain ⟨hgrows, hlast, hsettled⟩ := shown_plans_evolve (rehearsal onePlannedTask)
    (firstTurn .planExecute) (.new 1) 2 Client.reader_keepsReading
  have settled := hsettled rfl (by decide +kernel)
  rw [updates] at hgrows hlast
  rw [hlast] at settled
  have later := (List.pairwise_cons.mp hgrows).2
  exact ⟨_, _, updates, (List.pairwise_cons.mp later).1 _ (List.mem_singleton.mpr rfl), hlast,
    settled⟩

end AgentRun.Run
