import Mathlib.Data.List.Forall2
import AgentRun.Plan.Tools
import AgentRun.Proofs.Names

/-!
# Calls of the plan tools

A plan is changed in place, task by task: `Plan.addEach` stops at the first task that is refused and
leaves the plan as far as it got, and `PlanTool.carryOut` is a call that works this way. No call is
ever left halfway, because the descriptions are looked at before the first task is added and a text
that passes there is not refused later (`PlanTool.carryOut_eq`). Which calls succeed, and what they
change, is told by `plan_calls_are_exact`.
-/

namespace AgentRun

open Text (asciiLower isBlank isBlankText trimmed trim sameLetters)

/-! ## Blank texts -/

theorem Text.trimmed_eq_nil {cs : List Char} : trimmed cs = [] ↔ ∀ c ∈ cs, isBlank c = true := by
  constructor
  · intro h
    obtain ⟨before, after, hcs, hbefore, hafter⟩ := Text.eq_trimmed cs
    rw [h, List.nil_append] at hcs
    intro c hc
    rw [hcs] at hc
    rcases List.mem_append.mp hc with hc | hc
    · exact hbefore c hc
    · exact hafter c hc
  · intro h
    rw [trimmed, List.dropWhile_eq_nil_iff.mpr h]
    rfl

/-- The two ways to tell that a text is blank agree. -/
theorem Text.trim_eq_empty {s : String} : trim s = "" ↔ isBlankText s = true := by
  rw [isBlankText, List.all_eq_true, ← Text.trimmed_eq_nil, trim, String.ofList_eq_empty_iff]

theorem Text.isBlankText_trim (s : String) : isBlankText (trim s) = isBlankText s := by
  have htrim : trim (trim s) = trim s := by
    rw [trim, trim, String.toList_ofList, Text.trimmed_trimmed]
  rw [Bool.eq_iff_iff, ← Text.trim_eq_empty, ← Text.trim_eq_empty, htrim]

/-! ## What a call asks for -/

/-- The text of an item of a call that adds tasks: the item itself or its description. -/
def TaskText (item : Json) (text : String) : Prop :=
  item = .str text ∨ item.get? "description" = some (.str text)

/-- An item of a call that adds tasks, with a text that is not blank. -/
structure TaskItem (item : Json) (text : String) : Prop where
  written : TaskText item text
  notBlank : isBlankText text = false

/-- The tasks for some descriptions, open and with the names `fresh 0`, `fresh 1` and so on. -/
def newTasks (fresh : Nat → String) (ds : List String) : List PlanTask :=
  ds.mapIdx fun i d => ⟨fresh i, d, .init⟩

/-- The words for a final status. -/
def outcomeWords : List (String × TaskStatus) :=
  [("completed", .completed), ("failed", .failed), ("canceled", .canceled),
    ("cancelled", .canceled)]

/-- A word for a final status, with blanks around it and in any case. -/
def OutcomeWord (word : String) (status : TaskStatus) : Prop :=
  ∃ spelling, (spelling, status) ∈ outcomeWords ∧ sameLetters (trim word) spelling = true

variable {args item : Json} {fresh : Nat → String} {p q : Plan} {ds : List String}
  {taskId word text d : String} {status : TaskStatus} {change : PlanChange}

theorem Json.text?_eq_some {j : Json} {key : String} :
    j.text? key = some text ↔ j.get? key = some (.str text) := by
  rw [Json.text?, Option.bind_eq_some_iff]
  constructor
  · rintro ⟨value, hvalue, htext⟩
    cases value with
    | str s =>
      obtain rfl := Option.some.inj htext
      exact hvalue
    | _ => cases htext
  · intro h
    exact ⟨_, h, rfl⟩

theorem filter_trim : ((some text).map trim).filter (fun d => d != "") = some d ↔
    isBlankText text = false ∧ d = trim text := by
  rw [Option.map_some, Option.filter_eq_some_iff, Option.some.injEq, bne_iff_ne,
    ← Bool.not_eq_true, ← Text.trim_eq_empty]
  constructor
  · rintro ⟨rfl, hne⟩
    exact ⟨hne, rfl⟩
  · rintro ⟨hne, rfl⟩
    exact ⟨rfl, hne⟩

theorem description?_eq_some :
    PlanTool.description? item = some d ↔ ∃ text, TaskItem item text ∧ d = trim text := by
  unfold PlanTool.description?
  constructor
  · intro h
    split at h
    · rename_i s hs
      obtain ⟨hblank, rfl⟩ := filter_trim.mp h
      cases item with
      | str s' =>
        obtain rfl := Option.some.inj hs
        exact ⟨s', ⟨Or.inl rfl, hblank⟩, rfl⟩
      | _ => cases hs
    · cases hfield : item.text? "description" with
      | none => simp [hfield] at h
      | some s =>
        rw [hfield] at h
        obtain ⟨hblank, rfl⟩ := filter_trim.mp h
        exact ⟨s, ⟨Or.inr (Json.text?_eq_some.mp hfield), hblank⟩, rfl⟩
  · rintro ⟨text, ⟨rfl | hfield, hblank⟩, rfl⟩
    · exact filter_trim.mpr ⟨hblank, rfl⟩
    · cases item with
      | obj fields =>
        simp only [Json.str?, Json.text?_eq_some.mpr hfield]
        exact filter_trim.mpr ⟨hblank, rfl⟩
      | _ => cases hfield

theorem mapM_description? {items : List Json} :
    items.mapM PlanTool.description? = some ds ↔
      ∃ texts, List.Forall₂ TaskItem items texts ∧ ds = texts.map trim := by
  induction items generalizing ds with
  | nil =>
    rw [List.mapM_nil]
    constructor
    · intro h
      exact ⟨[], .nil, (Option.some.inj h).symm⟩
    · rintro ⟨texts, h, rfl⟩
      cases h
      rfl
  | cons item items ih =>
    rw [List.mapM_cons, Option.bind_eq_bind, Option.bind_eq_some_iff]
    constructor
    · rintro ⟨d, hd, h⟩
      obtain ⟨ds', hds', h⟩ := Option.bind_eq_some_iff.mp h
      obtain ⟨text, htext, rfl⟩ := description?_eq_some.mp hd
      obtain ⟨texts, htexts, rfl⟩ := ih.mp hds'
      exact ⟨text :: texts, .cons htext htexts, (Option.some.inj h).symm⟩
    · rintro ⟨texts, h, rfl⟩
      cases h with
      | cons htext htexts =>
        refine ⟨_, description?_eq_some.mpr ⟨_, htext, rfl⟩, ?_⟩
        exact Option.bind_eq_some_iff.mpr ⟨_, ih.mpr ⟨_, htexts, rfl⟩, rfl⟩

theorem descriptions_eq_ok : PlanTool.descriptions args = .ok ds ↔
    ∃ items texts, args.get? "tasks" = some (.arr items) ∧ items ≠ [] ∧
      List.Forall₂ TaskItem items texts ∧ ds = texts.map trim := by
  have hitems {items : List Json} : (args.get? "tasks").bind Json.items? = some items ↔
      args.get? "tasks" = some (.arr items) := by
    cases args.get? "tasks" with
    | none => simp
    | some value => cases value <;> simp [Json.items?]
  unfold PlanTool.descriptions
  constructor
  · intro h
    split at h
    · cases h
    · rename_i items hfound
      split at h
      · cases h
      · cases h
      · rename_i ds' hne hmap
        obtain rfl := Except.ok.inj h
        obtain ⟨texts, htexts, rfl⟩ := mapM_description?.mp hmap
        refine ⟨items, texts, hitems.mp hfound, ?_, htexts, rfl⟩
        rintro rfl
        cases htexts
        exact hne rfl
  · rintro ⟨items, texts, hfound, hne, htexts, rfl⟩
    simp only [hitems.mpr hfound, mapM_description?.mpr ⟨texts, htexts, rfl⟩]
    cases htexts with
    | nil => exact (hne rfl).elim
    | cons => rfl

theorem sameLetters_iff {a b : String} :
    sameLetters a b = true ↔ asciiLower a = asciiLower b := by
  rw [sameLetters, beq_iff_eq]

/-- The words for a final status are read in lower case, in which they are written. -/
theorem lookup_outcomeWords : ∀ o ∈ outcomeWords,
    (("cancelled", TaskStatus.canceled) :: TaskStatus.words).lookup (asciiLower o.1) = some o.2 ∧
      o.2.isTerminal = true := by decide

theorem mem_outcomeWords : ∀ o ∈ ("cancelled", TaskStatus.canceled) :: TaskStatus.words,
    o.2.isTerminal = true → o ∈ outcomeWords ∧ asciiLower o.1 = o.1 := by decide

theorem parse?_terminal :
    (TaskStatus.parse? word).filter TaskStatus.isTerminal = some status ↔
      OutcomeWord word status := by
  rw [Option.filter_eq_some_iff, TaskStatus.parse?]
  constructor
  · rintro ⟨hword, hterminal⟩
    obtain ⟨before, after, hwords, -⟩ := List.lookup_eq_some_iff.mp hword
    have hmem : (asciiLower (trim word), status) ∈
        ("cancelled", TaskStatus.canceled) :: TaskStatus.words := by
      rw [hwords]
      exact List.mem_append_right _ (List.mem_cons_self ..)
    obtain ⟨hlisted, hlower⟩ := mem_outcomeWords _ hmem hterminal
    exact ⟨_, hlisted, sameLetters_iff.mpr hlower.symm⟩
  · rintro ⟨spelling, hlisted, hsame⟩
    obtain ⟨hlookup, hterminal⟩ := lookup_outcomeWords _ hlisted
    rw [sameLetters_iff.mp hsame]
    exact ⟨hlookup, hterminal⟩

theorem outcome_eq_ok : PlanTool.outcome args = .ok (taskId, status) ↔
    args.get? "task_id" = some (.str taskId) ∧
      ∃ word, args.get? "status" = some (.str word) ∧ OutcomeWord word status := by
  unfold PlanTool.outcome
  constructor
  · intro h
    split at h
    · cases h
    · rename_i taskId' htask
      split at h
      · cases h
      · rename_i status' hstatus
        obtain ⟨rfl, rfl⟩ := Prod.mk.inj (Except.ok.inj h)
        refine ⟨Json.text?_eq_some.mp htask, ?_⟩
        cases hword : args.text? "status" with
        | none =>
          rw [hword] at hstatus
          cases hstatus
        | some word =>
          rw [hword, Option.bind_some] at hstatus
          exact ⟨word, Json.text?_eq_some.mp hword, parse?_terminal.mp hstatus⟩
  · rintro ⟨htask, word, hword, h⟩
    have hstatus : ((args.text? "status").bind TaskStatus.parse?).filter TaskStatus.isTerminal =
        some status := by
      rw [Json.text?_eq_some.mpr hword, Option.bind_some]
      exact parse?_terminal.mpr h
    simp only [Json.text?_eq_some.mpr htask, hstatus]

/-! ## A call in place -/

/-- Adds tasks one after another, up to the first that is refused. -/
def Plan.addEach (fresh : Nat → String) :
    List String → Plan → Except PlanError (List String) × Plan
  | [], p => (.ok [], p)
  | d :: ds, p =>
    match p.add? (fresh 0) d with
    | .error e => (.error e, p)
    | .ok q =>
      let (result, r) := addEach (fun i => fresh (i + 1)) ds q
      (result.map (fresh 0 :: ·), r)

/-- A call of a plan tool that changes the plan in place: its result, and the plan that it leaves
behind with either. -/
def PlanTool.carryOut (tool : PlanTool) (args : Json) (fresh : Nat → String) (p : Plan) :
    Except ToolError PlanChange × Plan :=
  match tool with
  | .addTasks =>
    match descriptions args with
    | .error e => (.error e, p)
    | .ok ds =>
      let (result, q) := Plan.addEach fresh ds p
      match result with
      | .ok taskIds => (.ok (.added taskIds), q)
      | .error e => (.error (.invalidArguments e.message), q)
  | .updateTask =>
    match outcome args with
    | .error e => (.error e, p)
    | .ok (taskId, status) =>
      match p.setStatus? taskId status with
      | .ok q => (.ok (.updated taskId status), q)
      | .error e => (.error (.executionFailed e.message), p)

theorem addTasksTo_eq : PlanTool.addTasksTo p fresh ds =
    ((newTasks fresh ds).map PlanTask.taskId,
      { p with tasks := p.tasks ++ newTasks fresh ds }) := by
  rw [newTasks, List.mapIdx_eq_zipIdx_map]
  rfl

theorem newTasks_cons : newTasks fresh (d :: ds) =
    ⟨fresh 0, d, .init⟩ :: newTasks (fun i => fresh (i + 1)) ds := List.mapIdx_cons

/-- A description that is not blank is added, so none is refused after the first. -/
theorem addEach_eq (h : ∀ d ∈ ds, isBlankText d = false) : p.addEach fresh ds =
    (.ok ((newTasks fresh ds).map PlanTask.taskId),
      { p with tasks := p.tasks ++ newTasks fresh ds }) := by
  induction ds generalizing fresh p with
  | nil => simp [Plan.addEach, newTasks]
  | cons d ds ih =>
    have hadd : p.add? (fresh 0) d =
        .ok { p with tasks := p.tasks ++ [⟨fresh 0, d, .init⟩] } := by
      simp [Plan.add?, h d List.mem_cons_self]
    have hrest : ∀ d' ∈ ds, isBlankText d' = false :=
      fun d' hd' => h d' (List.mem_cons_of_mem d hd')
    simp only [Plan.addEach, hadd, ih hrest, newTasks_cons, List.map_cons, List.append_assoc,
      List.cons_append, List.nil_append]
    rfl

theorem TaskItem.notBlank_all {items : List Json} {texts : List String}
    (h : List.Forall₂ TaskItem items texts) : ∀ text ∈ texts, isBlankText text = false := by
  induction h with
  | nil => exact List.forall_mem_nil _
  | cons hitem _ ih => exact List.forall_mem_cons.mpr ⟨hitem.notBlank, ih⟩

theorem descriptions_not_blank (h : PlanTool.descriptions args = .ok ds) :
    ∀ d ∈ ds, isBlankText d = false := by
  obtain ⟨items, texts, -, -, htexts, rfl⟩ := descriptions_eq_ok.mp h
  intro d hd
  obtain ⟨text, htext, rfl⟩ := List.mem_map.mp hd
  rw [Text.isBlankText_trim]
  exact TaskItem.notBlank_all htexts text htext

/-- A call leaves nothing half done: it changes the plan as a whole or not at all. -/
theorem PlanTool.carryOut_eq (tool : PlanTool) (args : Json) (fresh : Nat → String) (p : Plan) :
    tool.carryOut args fresh p = match tool.apply args fresh p with
      | .ok (change, q) => (.ok change, q)
      | .error e => (.error e, p) := by
  cases tool with
  | addTasks =>
    simp only [carryOut, apply]
    cases hds : descriptions args with
    | error e => rfl
    | ok ds =>
      simp only [addEach_eq (descriptions_not_blank hds), Except.map, addTasksTo_eq]
  | updateTask =>
    simp only [carryOut, apply]
    cases outcome args with
    | error e => rfl
    | ok o =>
      simp only [bind, Except.bind]
      cases p.setStatus? o.1 o.2 with
      | error e => rfl
      | ok q => rfl

/-! ## Which calls succeed -/

theorem mark_append {before after : List PlanTask} {t : PlanTask}
    (hbefore : ∀ u ∈ before, u.taskId ≠ taskId) (ht : t.taskId = taskId) :
    Plan.mark taskId status (before ++ t :: after) =
      before ++ { t with status := status } :: after := by
  induction before with
  | nil => rw [List.nil_append, Plan.mark, if_pos ht, List.nil_append]
  | cons u before ih =>
    have hu : u.taskId ≠ taskId := hbefore u List.mem_cons_self
    rw [List.cons_append, Plan.mark, if_neg hu,
      ih fun v hv => hbefore v (List.mem_cons_of_mem u hv), List.cons_append]

theorem task?_eq_some {t : PlanTask} : p.task? taskId = some t ↔ t.taskId = taskId ∧
    ∃ before after, p.tasks = before ++ t :: after ∧ ∀ u ∈ before, u.taskId ≠ taskId := by
  simp [Plan.task?, List.find?_eq_some_iff_append]

theorem setStatus?_eq_ok : p.setStatus? taskId status = .ok q ↔
    ∃ before t after, p.tasks = before ++ t :: after ∧ (∀ u ∈ before, u.taskId ≠ taskId) ∧
      t.taskId = taskId ∧ (t.status = .init ∨ t.status = status) ∧
      q = { p with tasks := before ++ { t with status := status } :: after } := by
  unfold Plan.setStatus?
  constructor
  · intro h
    cases htask : p.task? taskId with
    | none => simp [htask] at h
    | some t =>
      obtain ⟨ht, before, after, htasks, hbefore⟩ := task?_eq_some.mp htask
      refine ⟨before, t, after, htasks, hbefore, ht, ?_⟩
      simp only [htask] at h
      split at h
      · split at h
        · rename_i hsame
          obtain rfl := Except.ok.inj h
          exact ⟨Or.inr hsame, by rw [← hsame, ← htasks]⟩
        · cases h
      · rename_i hopen
        obtain rfl := Except.ok.inj h
        have hinit : t.status = .init := by
          cases hstatus : t.status with
          | init => rfl
          | _ => exact absurd (by rw [hstatus]; rfl) hopen
        exact ⟨Or.inl hinit, by rw [htasks, mark_append hbefore ht]⟩
  · rintro ⟨before, t, after, htasks, hbefore, ht, hstatus, rfl⟩
    have htask : p.task? taskId = some t :=
      task?_eq_some.mpr ⟨ht, before, after, htasks, hbefore⟩
    have hmarked : Plan.mark taskId status p.tasks =
        before ++ { t with status := status } :: after := by
      rw [htasks, mark_append hbefore ht]
    simp only [htask]
    by_cases hfinal : t.status.isTerminal = true
    · -- A final status is only set again, which changes nothing.
      have hsame : t.status = status :=
        hstatus.resolve_left fun hinit => by simp [hinit, TaskStatus.isTerminal] at hfinal
      rw [if_pos hfinal, if_pos hsame, ← hsame, ← htasks]
    · rw [if_neg hfinal, hmarked]

theorem apply_addTasks_eq_ok : PlanTool.addTasks.apply args fresh p = .ok (change, q) ↔
    ∃ items texts, args.get? "tasks" = some (.arr items) ∧ items ≠ [] ∧
      List.Forall₂ TaskItem items texts ∧
      change = .added ((newTasks fresh (texts.map trim)).map PlanTask.taskId) ∧
      q = { p with tasks := p.tasks ++ newTasks fresh (texts.map trim) } := by
  simp only [PlanTool.apply, addTasksTo_eq]
  constructor
  · intro h
    cases hds : PlanTool.descriptions args with
    | error e =>
      rw [hds] at h
      cases h
    | ok ds =>
      rw [hds] at h
      obtain ⟨items, texts, hitems, hne, htexts, rfl⟩ := descriptions_eq_ok.mp hds
      obtain ⟨rfl, rfl⟩ := Prod.mk.inj (Except.ok.inj h)
      exact ⟨items, texts, hitems, hne, htexts, rfl, rfl⟩
  · rintro ⟨items, texts, hitems, hne, htexts, rfl, rfl⟩
    rw [descriptions_eq_ok.mpr ⟨items, texts, hitems, hne, htexts, rfl⟩]
    rfl

theorem apply_updateTask_eq_ok : PlanTool.updateTask.apply args fresh p = .ok (change, q) ↔
    ∃ taskId word status, args.get? "task_id" = some (.str taskId) ∧
      args.get? "status" = some (.str word) ∧ OutcomeWord word status ∧
      p.setStatus? taskId status = .ok q ∧ change = .updated taskId status := by
  simp only [PlanTool.apply]
  constructor
  · intro h
    cases hout : PlanTool.outcome args with
    | error e =>
      rw [hout] at h
      cases h
    | ok o =>
      obtain ⟨taskId, status⟩ := o
      obtain ⟨htask, word, hword, hstatus⟩ := outcome_eq_ok.mp hout
      simp only [hout, bind, Except.bind] at h
      cases hset : p.setStatus? taskId status with
      | error e =>
        rw [hset] at h
        cases h
      | ok q' =>
        rw [hset] at h
        obtain ⟨rfl, rfl⟩ := Prod.mk.inj (Except.ok.inj h)
        exact ⟨taskId, word, status, htask, hword, hstatus, hset, rfl⟩
  · rintro ⟨taskId, word, status, htask, hword, hstatus, hset, rfl⟩
    simp only [outcome_eq_ok.mpr ⟨htask, word, hword, hstatus⟩, bind, Except.bind, hset]
    rfl

/-- A call of a plan tool changes the plan in place as a whole or not at all, and a refused call
leaves it as it was. Tasks are added just when there is at least one item and each has a text that
is not blank: for each item in order one open task with the text without the blanks around it,
behind the tasks that are there. An outcome is recorded just when it is a final status, by whatever
spelling, and the first task of the name is open or has that status already; at most the status of
this task is another then. -/
theorem plan_calls_are_exact (args : Json) (fresh : Nat → String) (p q : Plan) :
    (∀ tool : PlanTool, tool.carryOut args fresh p = match tool.apply args fresh p with
      | .ok (change, q) => (.ok change, q)
      | .error e => (.error e, p)) ∧
    (∀ (tool : PlanTool) (e : ToolError), tool.carryOut args fresh p = (.error e, q) → q = p) ∧
    (∀ change, PlanTool.addTasks.carryOut args fresh p = (.ok change, q) ↔
      ∃ items texts, args.get? "tasks" = some (.arr items) ∧ items ≠ [] ∧
        List.Forall₂ TaskItem items texts ∧
        change = .added ((newTasks fresh (texts.map trim)).map PlanTask.taskId) ∧
        q = { p with tasks := p.tasks ++ newTasks fresh (texts.map trim) }) ∧
    ∀ change, PlanTool.updateTask.carryOut args fresh p = (.ok change, q) ↔
      ∃ taskId word status before t after, args.get? "task_id" = some (.str taskId) ∧
        args.get? "status" = some (.str word) ∧ OutcomeWord word status ∧
        p.tasks = before ++ t :: after ∧ (∀ u ∈ before, u.taskId ≠ taskId) ∧
        t.taskId = taskId ∧ (t.status = .init ∨ t.status = status) ∧
        change = .updated taskId status ∧
        q = { p with tasks := before ++ { t with status := status } :: after } := by
  have hok (tool : PlanTool) (change : PlanChange) :
      tool.carryOut args fresh p = (.ok change, q) ↔
        tool.apply args fresh p = .ok (change, q) := by
    rw [PlanTool.carryOut_eq]
    cases tool.apply args fresh p with
    | error e => simp
    | ok o => simp [Prod.ext_iff]
  refine ⟨fun tool => PlanTool.carryOut_eq tool args fresh p, fun tool e h => ?_, fun change => ?_,
    fun change => ?_⟩
  · rw [PlanTool.carryOut_eq] at h
    split at h
    · cases h
    · exact (Prod.mk.inj h).2.symm
  · exact (hok _ change).trans apply_addTasks_eq_ok
  · refine (hok _ change).trans (apply_updateTask_eq_ok.trans ?_)
    constructor
    · rintro ⟨taskId, word, status, htask, hword, hstatus, hset, rfl⟩
      obtain ⟨before, t, after, htasks, hbefore, ht, hopen, rfl⟩ := setStatus?_eq_ok.mp hset
      exact ⟨taskId, word, status, before, t, after, htask, hword, hstatus, htasks, hbefore, ht,
        hopen, rfl, rfl⟩
    · rintro ⟨taskId, word, status, before, t, after, htask, hword, hstatus, htasks, hbefore, ht,
        hopen, rfl, rfl⟩
      have hset := setStatus?_eq_ok.mpr ⟨before, t, after, htasks, hbefore, ht, hopen, rfl⟩
      exact ⟨taskId, word, status, htask, hword, hstatus, hset, rfl⟩

end AgentRun
