import AgentRun.Proofs.Decoding
import AgentRun.Proofs.Moves
import AgentRun.Proofs.Names
import AgentRun.Proofs.ToolBudget

/-!
# Tools that are offered are known

A definition that is offered to the model was found under a name that an agent declares, it goes out
under the name of its tool, and a call comes back with that name trimmed. A registry holds each of
its tools under the form of its own name (`Keyed`), and this form is the same for all of the three.
So a call that gives the name of an offered definition is one of a plan tool, or it finds the only
registered tool of that definition (`PutToWork`).
-/

namespace AgentRun

/-! ## The registered tools -/

namespace ToolRegistry

variable {r : ToolRegistry} {t t' : Tool} {name : String}

/-- Every tool is registered under the form of its name. -/
def Keyed (r : ToolRegistry) : Prop :=
  ∀ key t, (key, t) ∈ r.entries → key = toolKey t.definition.name

/-- A tool is there under some name. -/
def Has (r : ToolRegistry) (t : Tool) : Prop := ∃ name, r.get? name = some t

theorem Keyed.empty : Keyed empty := fun _ _ h => absurd h List.not_mem_nil

theorem Keyed.register (h : Keyed r) (t : Tool) : Keyed (r.register t) := by
  intro key t' hmem
  rcases List.mem_cons.mp hmem with heq | hmem
  · obtain ⟨rfl, rfl⟩ := Prod.mk.inj heq
    rfl
  · exact h key t' (List.mem_of_mem_filter hmem)

theorem keyed_ofList (tools : List Tool) : Keyed (ofList tools) := by
  have hfold (r : ToolRegistry) (h : Keyed r) : Keyed (tools.foldl ToolRegistry.register r) := by
    induction tools generalizing r with
    | nil => exact h
    | cons t tools ih => exact ih _ (h.register t)
  exact hfold _ .empty

/-- A tool that is found under some name is found under its own. -/
theorem Keyed.get?_name (h : Keyed r) (hget : r.get? name = some t) :
    r.get? t.definition.name = some t := by
  have hfound : r.entries.lookup (toolKey name) = some t := hget
  obtain ⟨before, after, hentries, -⟩ := List.lookup_eq_some_iff.mp hfound
  have hmem : (toolKey name, t) ∈ r.entries := by
    rw [hentries]
    exact List.mem_append_right _ List.mem_cons_self
  have hkey : toolKey name = toolKey t.definition.name := h _ _ hmem
  have hsame : r.get? t.definition.name = r.get? name := by
    unfold get?
    rw [hkey]
  exact hsame.trans hget

/-- No two registered tools have the same definition. -/
theorem Keyed.eq_of_definition (h : Keyed r) (ht : r.Has t) (ht' : r.Has t')
    (hsame : t.definition = t'.definition) : t = t' := by
  obtain ⟨_, hget⟩ := ht
  obtain ⟨_, hget'⟩ := ht'
  have hown := h.get?_name hget
  rw [hsame, h.get?_name hget'] at hown
  exact (Option.some.inj hown).symm

theorem get?_trim (r : ToolRegistry) (name : String) : r.get? (Text.trim name) = r.get? name := by
  rw [get?, toolKey_trim, get?]

end ToolRegistry

/-! ## The names of plan tools -/

namespace PlanTool

theorem ofName?_trim (name : String) : ofName? (Text.trim name) = ofName? name := by
  have htwice : Text.trim (Text.trim name) = Text.trim name := by
    simp [Text.trim, Text.trimmed_trimmed]
  rw [ofName?, htwice, ofName?]

theorem ofName?_definition (p : PlanTool) : ofName? p.definition.name = some p := by
  cases p <;> decide

end PlanTool

/-! ## The name of a call -/

/-- Some fragments of a call give it a name: at least one of them does, and whatever other name
there is among them is blank. -/
structure GiveName (fs : List Fragment) (name : String) : Prop where
  given : ∃ f ∈ fs, f.name = some name
  only : ∀ f ∈ fs, ∀ other, f.name = some other → Text.trim other = "" ∨ other = name

/-- A call has the name that its fragments give, without the blanks around it. -/
theorem GiveName.firstNonBlank_eq {fs : List Fragment} {name : String} (h : GiveName fs name) :
    firstNonBlank (fs.map Fragment.name) = Text.trim name := by
  obtain ⟨f, hf, hname⟩ := h.given
  unfold firstNonBlank
  cases hfind : ((fs.map Fragment.name).filterMap fun n => n.map Text.trim).find?
      fun n => n ≠ "" with
  | none =>
    have hblank := List.find?_eq_none.mp hfind (Text.trim name)
      (List.mem_filterMap.mpr ⟨some name, hname ▸ List.mem_map_of_mem hf, rfl⟩)
    exact (by simpa using hblank : Text.trim name = "").symm
  | some first =>
    have hnot : first ≠ "" := by simpa using List.find?_some hfind
    obtain ⟨given, hgiven, hfirst⟩ := List.mem_filterMap.mp (List.mem_of_find?_eq_some hfind)
    obtain ⟨other, rfl, rfl⟩ := Option.map_eq_some_iff.mp hfirst
    obtain ⟨g, hg, hother⟩ := List.mem_map.mp hgiven
    rcases h.only g hg other hother with hblank | rfl
    · exact absurd hblank hnot
    · rfl

namespace Run

/-! ## What is offered -/

/-- What a run may offer: the plan tools, and the tools that are registered. -/
def Offers (env : Env) (d : ToolDefinition) : Prop :=
  (∃ p : PlanTool, d = p.definition) ∨ ∃ tool, env.tools.Has tool ∧ tool.definition = d

section Offers

variable {env : Env} {d : ToolDefinition} {rounds : Nat} {s s' : State} {c c' : Station} {m : Move}
  {wanted : Ask} {halt : Halt}

theorem toolsFor_offers {stage : StagePrompt} (h : d ∈ toolsFor env stage) : Offers env d := by
  rcases List.mem_append.mp h with h | h
  · obtain ⟨name, -, hname⟩ := List.mem_filterMap.mp h
    obtain ⟨tool, htool, rfl⟩ := Option.map_eq_some_iff.mp hname
    exact Or.inr ⟨tool, ⟨name, htool⟩, rfl⟩
  · obtain ⟨p, -, rfl⟩ := List.mem_map.mp h
    exact Or.inl ⟨p, rfl⟩

theorem taskTools_offers (h : d ∈ taskTools env) : Offers env d := by
  simp only [taskTools] at h
  split at h
  · exact toolsFor_offers h
  · rcases List.mem_append.mp h with h | h
    · exact toolsFor_offers h
    · exact Or.inl ⟨.updateTask, List.mem_singleton.mp h⟩

theorem asked_offers {keep : List Call → List Call} {next : List Call → Station}
    {denied : Station} (hd : Decides env rounds s c (.ask wanted keep next denied))
    (h : d ∈ wanted.tools) : Offers env d := by
  cases hd with
  | decide => exact toolsFor_offers h
  | step _ => exact toolsFor_offers h
  | plan _ _ => exact Or.inl ⟨.addTasks, List.mem_singleton.mp h⟩
  | round _ _ => exact taskTools_offers h
  | summary _ => cases h

/-- The requests of a run offer what it may offer. -/
def RequestsOffer (env : Env) (s : State) : Prop :=
  ∀ request ∈ requestsOf s.trail, ∀ d ∈ request.tools, Offers env d

theorem RequestsOffer.uncounted (h : RequestsOffer env s) (hu : Uncounted s s') :
    RequestsOffer env s' := by
  unfold RequestsOffer
  rw [hu.requests]
  exact h

theorem RequestsOffer.counted (h : RequestsOffer env s) (hd : Decides env rounds s c m)
    (hc : Uncounted s s' ∨ ∃ wanted keep next denied, m = .ask wanted keep next denied ∧
      Consulted env wanted keep s s') : RequestsOffer env s' := by
  rcases hc with hu | ⟨wanted, keep, next, denied, rfl, hconsulted⟩
  · exact h.uncounted hu
  · obtain ⟨n, -, -, hrequests⟩ := hconsulted.requests
    intro request hrequest d hoffered
    rw [hrequests] at hrequest
    rcases List.mem_append.mp hrequest with hrequest | hrequest
    · exact h request hrequest d hoffered
    · rw [List.eq_of_mem_replicate hrequest] at hoffered
      exact asked_offers hd hoffered

theorem final_offers (engine : Engine) (turn : UserTurn) (world : World) (fuel : Nat) :
    RequestsOffer (engine.start turn world).1 (engine.run turn world fuel).final := by
  have hafter : RequestsOffer (engine.start turn world).1
      (afterStages engine turn world fuel) := by
    refine (visits_start engine turn world fuel).comesOut
      (I := fun _ => RequestsOffer (engine.start turn world).1) ?_
      (fun c s c' s' _ h hm => h.counted (decides ..) hm.counts) (fun s h => h)
      (fun c s s' halt _ h _ hs => h.counted (decides ..) hs.counts)
    intro request hrequest
    rw [start_stands.trail] at hrequest
    cases hrequest
  exact hafter.uncounted (final_uncounted engine turn world fuel).1

end Offers

/-! ## How a call is put to work -/

/-- The result of a call whose name is that of no tool. -/
def unknownResult (name : String) : Json := failureResult ("unknown tool: " ++ name)

/-- A call is put to work for a definition: whenever it is answered with arguments that are JSON, it
changes the plan if the name is that of a plan tool, and otherwise, if the budget admits it, it is
worked off by the only registered tool of the definition. -/
structure PutToWork (env : Env) (d : ToolDefinition) (call : Call) : Prop where
  planned : ∀ p, PlanTool.ofName? d.name = some p → ∀ s raw, call.arguments = .ok raw →
    (dispatch env call).run s = (do
      let (result, change) ← changePlan env p (resolve s.records raw)
      complete env call (resolve s.records raw) result change).run (s.note (.dispatch call)) ∧
    Ensures (dispatch env call) s (fun answer _ => ∀ name, answer.result ≠ unknownResult name)
      (fun _ _ => True)
  worked : PlanTool.ofName? d.name = none → ∃ tool, env.tools.Has tool ∧ tool.definition = d ∧
    (∀ other, env.tools.Has other → other.definition = d → other = tool) ∧
    ∀ s raw spending, call.arguments = .ok raw → s.spending.admitTool = .ok spending →
      (dispatch env call).run s = (do
        let result ← workOff env tool call (resolve s.records raw)
        complete env call (resolve s.records raw) result none).run
          { s.note (.dispatch call) with spending := spending }

section Dispatch

variable {α : Type} {env : Env} {call : Call} {p : PlanTool} {tool : Tool} {s : State}
  {raw : Json} {spending : Spending}

theorem run_modify_bind {f : State → State} {k : PUnit → RunM α} :
    (modify f >>= k : RunM α).run s = (k ⟨⟩).run (f s) := rfl

theorem dispatch_planned (hargs : call.arguments = .ok raw)
    (hname : PlanTool.ofName? call.name = some p) :
    (dispatch env call).run s = (do
      let (result, change) ← changePlan env p (resolve s.records raw)
      complete env call (resolve s.records raw) result change).run (s.note (.dispatch call)) := by
  unfold dispatch
  rw [hargs, hname]
  rfl

theorem dispatch_worked (hargs : call.arguments = .ok raw)
    (hname : PlanTool.ofName? call.name = none) (hadmitted : s.spending.admitTool = .ok spending)
    (htool : env.tools.get? call.name = some tool) :
    (dispatch env call).run s = (do
      let result ← workOff env tool call (resolve s.records raw)
      complete env call (resolve s.records raw) result none).run
        { s.note (.dispatch call) with spending := spending } := by
  have hadmit : (admitTool.run (s.note (.dispatch call))) =
      (.ok none, { s.note (.dispatch call) with spending := spending }) := by
    have hnoted : (s.note (.dispatch call)).spending.admitTool = .ok spending := hadmitted
    unfold admitTool
    rw [run_get_bind, hnoted]
    rfl
  unfold dispatch
  rw [run_modify_bind, hargs]
  dsimp only
  rw [run_get_bind, hname]
  dsimp only
  rw [run_bind, hadmit]
  dsimp only
  rw [htool]
  rfl

theorem toolError_known (e : ToolError) (name : String) :
    failureResult e.message ≠ unknownResult name := by
  have hstart : ("unknown tool: " ++ name).toList.take 6 = "unknow".toList := by
    rw [take_append (by decide)]
    rfl
  exact toolError_ne e (by rw [hstart]; decide)

theorem complete_answers (args result : Json) (change : Option PlanChange) :
    Ensures (complete env call args result change) s (fun answer _ => answer.result = result)
      (fun _ _ => True) := by
  refine ensures_complete (R := fun _ => True) ?_ (fun _ _ _ => rfl) (fun _ _ _ => ?_)
  · exact .of_forall (fun _ _ => trivial) (fun _ _ => trivial)
  · exact .of_forall (fun _ _ => rfl) (fun _ _ => trivial)

/-- Whatever becomes of a call of a plan tool, it is not answered as one of no tool. -/
theorem planned_known (args : Json) : Ensures (do
      let (result, change) ← changePlan env p args
      complete env call args result change) s
    (fun answer _ => ∀ name, answer.result ≠ unknownResult name) (fun _ _ => True) := by
  rw [ensures_bind]
  refine ensures_changePlan (fun change plan _ => ?_) (fun e _ => ?_)
  · refine (complete_answers _ _ _).imp fun answer _ h name => ?_
    rw [h]
    exact change_ne_failure _ _
  · refine (complete_answers _ _ _).imp fun answer _ h name => ?_
    rw [h]
    exact toolError_known e name

/-- A call that has the name of what is offered, but for the blanks around it, is put to work for
it. -/
theorem Offers.putToWork {d : ToolDefinition} (h : Offers env d) (hkeyed : env.tools.Keyed)
    (hname : call.name = Text.trim d.name) : PutToWork env d call where
  planned := fun p hp s raw hargs => by
    have hcalled : PlanTool.ofName? call.name = some p := by
      rw [hname, PlanTool.ofName?_trim, hp]
    have hrun : (dispatch env call).run s = _ := dispatch_planned hargs hcalled
    refine ⟨hrun, ?_⟩
    unfold Ensures
    rw [hrun]
    exact planned_known _
  worked := fun hnone => by
    have hcalled : PlanTool.ofName? call.name = none := by
      rw [hname, PlanTool.ofName?_trim, hnone]
    rcases h with ⟨p, rfl⟩ | ⟨tool, hhas, rfl⟩
    · rw [PlanTool.ofName?_definition] at hnone
      cases hnone
    · obtain ⟨declared, hget⟩ := hhas
      have hfound : env.tools.get? call.name = some tool := by
        rw [hname, ToolRegistry.get?_trim]
        exact hkeyed.get?_name hget
      exact ⟨tool, ⟨declared, hget⟩, rfl,
        fun other hother hsame => hkeyed.eq_of_definition hother ⟨declared, hget⟩ hsame,
        fun s raw spending hargs hadmitted => dispatch_worked hargs hcalled hadmitted hfound⟩

end Dispatch

/-- Whatever tools were registered, a call whose fragments give it the name of a definition that a
request of the run offers is put to work for that definition. -/
theorem offered_tools_are_known (engine : Engine) (tools : List Tool) (turn : UserTurn)
    (world : World) (fuel : Nat) (htools : engine.tools = .ofList tools) :
    ∀ request ∈ (engine.run turn world fuel).final.requests, ∀ d ∈ request.tools,
      ∀ (chunks : List Chunk) (minted : Nat),
        let answer := Assembly.pushAll engine.supply chunks (.start minted)
        ∀ call ∈ answer.2.turn.calls,
          GiveName (fragmentsWith call.id (fragmentsOf chunks) (piecesOf answer.1)) d.name →
            PutToWork (engine.start turn world).1 d call := by
  intro request hrequest d hd chunks minted answer call hcall hgive
  rw [← State.requestsOf_trail] at hrequest
  have hkeyed : (engine.start turn world).1.tools.Keyed := by
    rw [show (engine.start turn world).1.tools = engine.tools from rfl, htools]
    exact ToolRegistry.keyed_ofList tools
  have hagrees := Assembly.pushAll_agrees engine.supply chunks minted
  refine (final_offers engine turn world fuel request hrequest d hd).putToWork hkeyed ?_
  rw [hagrees.name call hcall]
  exact hgive.firstNonBlank_eq

/-- A tool that takes the place of another one, whose name has other cases and other blanks. -/
def successor : Tool := ⟨⟨"Écho ", "Return the arguments unchanged", .empty⟩, .backend⟩

/-- An engine in which the tool came in the place of an older one. -/
def renewed : Engine :=
  { rehearsal [Script.ofChunks (Script.texts ["Hello"]) .done] with
    tools := .ofList [⟨⟨"\tÉCHO", "Answer in a loud voice", .empty⟩, .action⟩, successor] }

/-- A turn of an agent that declares the tool in letters of its own. -/
def declaring : UserTurn :=
  { firstTurn .oneshot with
    agent := { (firstTurn .oneshot).agent with tools := ["éCHO"] } }

/-- The tool that came last is the one that is offered, and the one that its name calls. -/
theorem successor_is_put_to_work :
    (renewed.run declaring (.new 1) 0).final.requests.map (·.tools) = [[successor.definition]] ∧
      PutToWork (renewed.start declaring (.new 1)).1 successor.definition
        ⟨"c1", "Écho", "{}", 0⟩ := by
  have hrequests : (renewed.run declaring (.new 1) 0).final.requests.map (·.tools) =
      [[successor.definition]] := by decide +kernel
  have hfragments : (fragmentsWith "c1" (fragmentsOf (Script.calls [("c1", "Écho ", .empty)]))
      (piecesOf (Assembly.pushAll renewed.supply
        (Script.calls [("c1", "Écho ", .empty)]) (.start 0)).1)).map Fragment.name =
      [some "Écho "] := by decide +kernel
  obtain ⟨request, hrequest, htools⟩ := List.mem_map.mp (hrequests ▸ List.mem_singleton_self _)
  refine ⟨hrequests, offered_tools_are_known renewed _ declaring (.new 1) 0 rfl request hrequest
    successor.definition (htools ▸ List.mem_singleton_self _)
    (Script.calls [("c1", "Écho ", .empty)]) 0 _ (by decide +kernel)
    ⟨by decide +kernel, fun f hf other hother => Or.inr ?_⟩⟩
  have hname := List.mem_map_of_mem hf (f := Fragment.name)
  rw [hfragments, hother] at hname
  exact Option.some.inj (List.mem_singleton.mp hname)

end Run

end AgentRun
