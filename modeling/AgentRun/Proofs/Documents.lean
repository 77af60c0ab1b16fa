import AgentRun.Agent
import AgentRun.Event
import AgentRun.Message
import AgentRun.Model.Chunk
import AgentRun.Proofs.Records

/-!
# Documents give back what they were written for

An agent, a plan, the chunks of a model, the events of a run and the messages of a conversation are
handed on as documents. Reading such a document gives the value that was written, whichever parts
were absent and whichever lists were empty. What has to be known of a value is only what its parts
hold anyway: its numbers fit in the words they are kept in, and the objects in its free values have
strictly ascending keys at every depth, as those of an ordered map do. These are the predicates
`InRange`.

The lemmas go from the parts to the whole, one for each sort of document. Each first says that the
reader gets the written parts, and then reads them one by one through the lemmas of
`AgentRun.Proofs.Records`.
-/

namespace AgentRun

/-! ## Plans -/

namespace TaskStatus

theorem word?_toJson (s : TaskStatus) : s.toJson.word? words = some s := by
  cases s <;> rfl

theorem innerWord?_toJson (s : TaskStatus) : s.toJson.innerWord? words = some s := by
  cases s <;> rfl

end TaskStatus

namespace PlanTask

theorem read?_toJson {status : Json → Option TaskStatus} (hstatus : ∀ s, status s.toJson = some s)
    (t : PlanTask) : read? status t.toJson = some t := by
  have hrecord : t.toJson.record? outline.names = some _ :=
    Json.record?_obj (by decide) (List.Sublist.refl _)
  have hs : status t.status.toJson = some t.status := hstatus t.status
  simp [read?, hrecord, Record.required, List.lookup_cons, hs]

end PlanTask

namespace Plan

theorem read?_toJson {status : Json → Option TaskStatus} (hstatus : ∀ s, status s.toJson = some s)
    (p : Plan) : read? status p.toJson = some p := by
  have hrecord : p.toJson.record? outline.names = some _ :=
    Json.record?_obj (by decide) (List.Sublist.refl _)
  have htasks : (Json.list PlanTask.toJson p.tasks).list? (PlanTask.read? status) = some p.tasks :=
    Json.list?_list fun t _ => PlanTask.read?_toJson hstatus t
  simp [read?, hrecord, Record.required, List.lookup_cons, htasks]

/-- A plan has no numbers and no free values, so every plan comes back. -/
theorem ofJson?_toJson (p : Plan) : ofJson? p.toJson = some p :=
  read?_toJson TaskStatus.word?_toJson p

end Plan

/-! ## Events -/

theorem FinishReason.innerWord?_toJson (r : FinishReason) :
    r.toJson.innerWord? FinishReason.words = some r := by
  cases r <;> rfl

namespace CallPiece

/-- The place of the call fits in 32 bits. -/
def InRange (p : CallPiece) : Prop := p.index < Text.word32

theorem ofJson?_fields {p : CallPiece} (hp : p.InRange) : ofJson? (.obj p.fields) = some p := by
  have hkeys : (p.fields.map Prod.fst).Sublist
      (["id"] ++ ["name"] ++ ["call_type"] ++ ["args_chunk", "index"]) :=
    Record.keys_append (Record.keys_append (Record.keys_append (.refl _) (Record.keys_maybe p.name))
      (Record.keys_maybe p.callType)) (.refl _)
  have hrecord : (Json.obj p.fields).record? ["id", "name", "call_type", "args_chunk", "index"]
      = some p.fields := Json.record?_obj (by decide) hkeys
  have hid : p.fields.required "id" Json.str? = some p.id := by
    simp [fields, Record.required]
  have hname : p.fields.optional "name" Json.str? = some p.name :=
    Record.optional_text (by simp [fields, List.lookup_append, List.lookup_cons])
  have hcallType : p.fields.optional "call_type" Json.str? = some p.callType :=
    Record.optional_text (by simp [fields, List.lookup_append, List.lookup_cons])
  have hargs : p.fields.required "args_chunk" Json.str? = some p.argsChunk := by
    simp [fields, Record.required, List.lookup_append, List.lookup_cons]
  have hindex : p.fields.required "index" Json.word32? = some p.index :=
    Record.required_of (by simp [fields, List.lookup_append, List.lookup_cons])
      (Json.word32?_nat hp)
  simp [ofJson?, hrecord, hid, hname, hcallType, hargs, hindex]

/-- A piece is told apart from other events by a field of its own name, which is none of its
parts. -/
theorem type_notMem_keys (p : CallPiece) : "type" ∉ p.fields.map Prod.fst := by
  obtain ⟨id, name, callType, argsChunk, index⟩ := p
  cases name <;> cases callType <;> simp [fields, Record.maybe]

end CallPiece

namespace Event

/-- The numbers of the event fit in their words and its free value is canonical. -/
def InRange : Event → Prop
  | .toolCall p => p.InRange
  | .toolResult _ result => result.IsCanonical
  | _ => True

theorem textOfJson?_obj (make : String → String → Event) (block text : String) :
    textOfJson? make (.obj [("block_id", .str block), ("text", .str text)])
      = some (make block text) := by
  have hrecord : (Json.obj [("block_id", .str block), ("text", .str text)]).record?
      ["block_id", "text"] = some _ := Json.record?_obj (by decide) (List.Sublist.refl _)
  simp [textOfJson?, hrecord, Record.required, List.lookup_cons]

theorem type_notMem_keys (e : Event) : "type" ∉ e.fields.map Prod.fst := by
  cases e with
  | toolCall p => exact p.type_notMem_keys
  | _ => simp [fields]

theorem ofJson?_toJson {e : Event} (he : e.InRange) : ofJson? e.toJson = some e := by
  have htagged : e.toJson.tagged? "type" = some (e.typeName, .obj e.fields) :=
    Json.tagged?_obj e.type_notMem_keys
  rw [ofJson?, htagged]
  cases e with
  | content block text => exact textOfJson?_obj .content block text
  | reasoning block text => exact textOfJson?_obj .reasoning block text
  | toolCall p =>
    have hpiece : CallPiece.ofJson? (.obj p.fields) = some p := CallPiece.ofJson?_fields he
    simp [typeName, fields, hpiece]
  | toolResult callId result =>
    have hrecord : (Json.obj [("tool_id", .str callId), ("result", result)]).record?
        ["tool_id", "result"] = some _ := Json.record?_obj (by decide) (List.Sublist.refl _)
    have hresult : result.free? = some result := Json.free?_of_isCanonical he
    simp [typeName, fields, hrecord, Record.required, List.lookup_cons, hresult]
  | planUpdate p =>
    have hplan : Plan.read? (Json.innerWord? TaskStatus.words) p.toJson = some p :=
      Plan.read?_toJson TaskStatus.innerWord?_toJson p
    simp only [Plan.toJson] at hplan
    simp [typeName, fields, hplan]
  | stage label =>
    have hrecord : (Json.obj [("label", .str label)]).record? ["label"] = some _ :=
      Json.record?_obj (by decide) (List.Sublist.refl _)
    simp [typeName, fields, hrecord, Record.required]
  | finish reason =>
    have hrecord : (Json.obj [("reason", reason.toJson)]).record? ["reason"] = some _ :=
      Json.record?_obj (by decide) (List.Sublist.refl _)
    have hreason : reason.toJson.innerWord? FinishReason.words = some reason :=
      FinishReason.innerWord?_toJson reason
    simp [typeName, fields, hrecord, Record.required, hreason]

end Event

/-! ## Messages -/

theorem ToolCallBlock.ofJson?_toJson {b : ToolCallBlock} (hb : b.arguments.IsCanonical) :
    ToolCallBlock.ofJson? b.toJson = some b := by
  have hrecord : b.toJson.record? ToolCallBlock.outline.names = some _ :=
    Json.record?_obj (by decide) (List.Sublist.refl _)
  have harguments : b.arguments.free? = some b.arguments := Json.free?_of_isCanonical hb
  simp [ToolCallBlock.ofJson?, hrecord, Record.required, List.lookup_cons, harguments]

namespace AssistantMessage

/-- The arguments of every call are canonical. -/
def InRange (m : AssistantMessage) : Prop := ∀ b ∈ m.toolCalls, b.arguments.IsCanonical

theorem ofJson?_fields {m : AssistantMessage} (hm : m.InRange) :
    ofJson? (.obj m.fields) = some m := by
  have hkeys : (m.fields.map Prod.fst).Sublist (["text"] ++ ["reasoning"] ++ ["tool_calls"]) :=
    Record.keys_append (Record.keys_append (.refl _) (Record.keys_maybe m.reasoning))
      (Record.keys_unlessEmpty m.toolCalls)
  have hrecord : (Json.obj m.fields).record? outline.names = some m.fields :=
    Json.record?_obj (by decide) hkeys
  have htext : m.fields.required "text" Json.str? = some m.text := by
    simp [fields, Record.required]
  have hreasoning : m.fields.optional "reasoning" Json.str? = some m.reasoning :=
    Record.optional_text (by simp [fields, List.lookup_append, List.lookup_cons])
  have hcalls : m.fields.orElse "tool_calls" [] (Json.list? ToolCallBlock.ofJson?)
      = some m.toolCalls :=
    Record.orElse_items (by simp [fields, List.lookup_append, List.lookup_cons])
      fun b hb => ToolCallBlock.ofJson?_toJson (hm b hb)
  simp [ofJson?, hrecord, htext, hreasoning, hcalls]

theorem role_notMem_keys (m : AssistantMessage) : "role" ∉ m.fields.map Prod.fst := by
  obtain ⟨text, reasoning, toolCalls⟩ := m
  cases reasoning <;> cases toolCalls <;> simp [fields, Record.maybe, Record.unlessEmpty]

end AssistantMessage

theorem ToolMessage.ofJson?_fields {m : ToolMessage} (hm : m.content.IsCanonical) :
    ToolMessage.ofJson? (.obj m.fields) = some m := by
  have hrecord : (Json.obj m.fields).record? ["tool_call_id", "name", "content"]
      = some [("tool_call_id", .str m.callId), ("name", .str m.name), ("content", m.content)] :=
    Json.record?_obj (by decide) (List.Sublist.refl _)
  have hcontent : m.content.free? = some m.content := Json.free?_of_isCanonical hm
  simp [ToolMessage.ofJson?, hrecord, Record.required, List.lookup_cons, hcontent]

namespace Message

/-- The free values of the message are canonical. -/
def InRange : Message → Prop
  | .user _ => True
  | .assistant m => m.InRange
  | .tool m => m.content.IsCanonical

theorem ofJson?_toJson {m : Message} (hm : m.InRange) : ofJson? m.toJson = some m := by
  cases m with
  | user text =>
    have htagged : (toJson (.user text)).tagged? "role"
        = some ("user", .obj [("text", .str text)]) := Json.tagged?_obj (by simp)
    have hrecord : (Json.obj [("text", .str text)]).record? ["text"] = some _ :=
      Json.record?_obj (by decide) (List.Sublist.refl _)
    simp [ofJson?, htagged, hrecord, Record.required]
  | assistant a =>
    have htagged : (toJson (.assistant a)).tagged? "role" = some ("assistant", .obj a.fields) :=
      Json.tagged?_obj a.role_notMem_keys
    have hanswer : AssistantMessage.ofJson? (.obj a.fields) = some a :=
      AssistantMessage.ofJson?_fields hm
    simp [ofJson?, htagged, hanswer]
  | tool t =>
    have htagged : (toJson (.tool t)).tagged? "role" = some ("tool", .obj t.fields) :=
      Json.tagged?_obj (by simp [ToolMessage.fields])
    have hresult : ToolMessage.ofJson? (.obj t.fields) = some t := ToolMessage.ofJson?_fields hm
    simp [ofJson?, htagged, hresult]

end Message

/-! ## Chunks -/

namespace Fragment

/-- The place of the call fits in 32 bits, if it is told. -/
def InRange (f : Fragment) : Prop := ∀ n ∈ f.index, n < Text.word32

theorem ofJson?_toJson {f : Fragment} (hf : f.InRange) : ofJson? f.toJson = some f := by
  let r : Record := Record.maybe "index" .nat f.index ++ Record.maybe "id" .str f.id ++
    Record.maybe "name" .str f.name ++ Record.maybe "type" .str f.callType ++
    Record.maybe "arguments" .str f.arguments
  have hkeys : (r.map Prod.fst).Sublist
      (["index"] ++ ["id"] ++ ["name"] ++ ["type"] ++ ["arguments"]) :=
    Record.keys_append (Record.keys_append (Record.keys_append (Record.keys_append
      (Record.keys_maybe f.index) (Record.keys_maybe f.id)) (Record.keys_maybe f.name))
      (Record.keys_maybe f.callType)) (Record.keys_maybe f.arguments)
  have hrecord : f.toJson.record? outline.names = some r := Json.record?_obj (by decide) hkeys
  have hindex : r.optional "index" Json.word32? = some f.index :=
    Record.optional_of .nat (by simp [r, List.lookup_append]) (by simp [Json.nat])
      fun n hn => Json.word32?_nat (hf n hn)
  have hid : r.optional "id" Json.str? = some f.id :=
    Record.optional_text (by simp [r, List.lookup_append])
  have hname : r.optional "name" Json.str? = some f.name :=
    Record.optional_text (by simp [r, List.lookup_append])
  have hcallType : r.optional "type" Json.str? = some f.callType :=
    Record.optional_text (by simp [r, List.lookup_append])
  have harguments : r.optional "arguments" Json.str? = some f.arguments :=
    Record.optional_text (by simp [r, List.lookup_append])
  simp [ofJson?, hrecord, hindex, hid, hname, hcallType, harguments]

end Fragment

namespace Usage

/-- The counts fit in 32 bits. -/
def InRange (u : Usage) : Prop := u.inputTokens < Text.word32 ∧ u.outputTokens < Text.word32

theorem ofJson?_toJson {u : Usage} (hu : u.InRange) : ofJson? u.toJson = some u := by
  let r : Record := [("input_tokens", .nat u.inputTokens), ("output_tokens", .nat u.outputTokens)]
  have hrecord : u.toJson.record? outline.names = some r :=
    Json.record?_obj (by decide) (List.Sublist.refl _)
  have hinput : r.required "input_tokens" Json.word32? = some u.inputTokens :=
    Record.required_of (by simp [r]) (Json.word32?_nat hu.1)
  have houtput : r.required "output_tokens" Json.word32? = some u.outputTokens :=
    Record.required_of (by simp [r, List.lookup_cons]) (Json.word32?_nat hu.2)
  -- With the steps as definitional equalities the checker would count down from the bound.
  simp -implicitDefEqProofs [ofJson?, hrecord, hinput, houtput]

end Usage

namespace Chunk

/-- The numbers of the fragments and of the cost fit in their words. -/
structure InRange (c : Chunk) : Prop where
  toolCalls : ∀ f ∈ c.toolCalls, f.InRange
  usage : ∀ u ∈ c.usage, u.InRange

theorem ofJson?_toJson {c : Chunk} (hc : c.InRange) : ofJson? c.toJson = some c := by
  let r : Record := Record.maybe "content" .str c.content ++
    Record.maybe "reasoning" .str c.reasoning ++
    Record.unlessEmpty "tool_calls" Fragment.toJson c.toolCalls ++
    Record.maybe "finish_reason" .str c.finishReason ++ Record.maybe "usage" Usage.toJson c.usage
  have hkeys : (r.map Prod.fst).Sublist
      (["content"] ++ ["reasoning"] ++ ["tool_calls"] ++ ["finish_reason"] ++ ["usage"]) :=
    Record.keys_append (Record.keys_append (Record.keys_append (Record.keys_append
      (Record.keys_maybe c.content) (Record.keys_maybe c.reasoning))
      (Record.keys_unlessEmpty c.toolCalls)) (Record.keys_maybe c.finishReason))
      (Record.keys_maybe c.usage)
  have hrecord : c.toJson.record? outline.names = some r := Json.record?_obj (by decide) hkeys
  have hcontent : r.optional "content" Json.str? = some c.content :=
    Record.optional_text (by simp [r, List.lookup_append])
  have hreasoning : r.optional "reasoning" Json.str? = some c.reasoning :=
    Record.optional_text (by simp [r, List.lookup_append])
  have hcalls : r.orElse "tool_calls" [] (Json.list? Fragment.ofJson?) = some c.toolCalls :=
    Record.orElse_items (by simp [r, List.lookup_append])
      fun f hf => Fragment.ofJson?_toJson (hc.toolCalls f hf)
  have hfinish : r.optional "finish_reason" Json.str? = some c.finishReason :=
    Record.optional_text (by simp [r, List.lookup_append])
  have husage : r.optional "usage" Usage.ofJson? = some c.usage :=
    Record.optional_of Usage.toJson (by simp [r, List.lookup_append]) (by simp [Usage.toJson])
      fun u hu => Usage.ofJson?_toJson (hc.usage u hu)
  simp [ofJson?, hrecord, hcontent, hreasoning, hcalls, hfinish, husage]

end Chunk

/-! ## Agents -/

namespace Scope

/-- The limits fit in the words they are kept in. -/
structure InRange (s : Scope) : Prop where
  maxCalls : s.maxCalls < Text.word32
  timeoutMs : s.timeoutMs < Text.word64
  retryCount : s.retryCount < Text.word32

theorem ofJson?_toJson {s : Scope} (hs : s.InRange) : ofJson? s.toJson = some s := by
  let r : Record := [("max_calls", .nat s.maxCalls), ("timeout_ms", .nat s.timeoutMs),
    ("retry_count", .nat s.retryCount)]
  have hrecord : s.toJson.record? outline.names = some r :=
    Json.record?_obj (by decide) (List.Sublist.refl _)
  have hcalls : r.orElse "max_calls" 0 Json.word32? = some s.maxCalls :=
    Record.orElse_of (by simp [r]) (Json.word32?_nat hs.maxCalls)
  have htimeout : r.orElse "timeout_ms" 0 Json.word64? = some s.timeoutMs :=
    Record.orElse_of (by simp [r, List.lookup_cons]) (Json.word64?_nat hs.timeoutMs)
  have hretries : r.orElse "retry_count" 0 Json.word32? = some s.retryCount :=
    Record.orElse_of (by simp [r, List.lookup_cons]) (Json.word32?_nat hs.retryCount)
  simp -implicitDefEqProofs [ofJson?, hrecord, hcalls, htimeout, hretries]

end Scope

namespace Budget

/-- The limits fit in the words they are kept in. -/
structure InRange (b : Budget) : Prop where
  runTimeoutMs : b.runTimeoutMs < Text.word64
  model : b.model.InRange
  tool : b.tool.InRange

theorem ofJson?_toJson {b : Budget} (hb : b.InRange) : ofJson? b.toJson = some b := by
  let r : Record := [("run_timeout_ms", .nat b.runTimeoutMs), ("model", b.model.toJson),
    ("tool", b.tool.toJson)]
  have hrecord : b.toJson.record? outline.names = some r :=
    Json.record?_obj (by decide) (List.Sublist.refl _)
  have htimeout : r.orElse "run_timeout_ms" 0 Json.word64? = some b.runTimeoutMs :=
    Record.orElse_of (by simp [r]) (Json.word64?_nat hb.runTimeoutMs)
  have hmodel : r.orElse "model" .unlimited Scope.ofJson? = some b.model :=
    Record.orElse_of (by simp [r, List.lookup_cons]) (Scope.ofJson?_toJson hb.model)
  have htool : r.orElse "tool" .unlimited Scope.ofJson? = some b.tool :=
    Record.orElse_of (by simp [r, List.lookup_cons]) (Scope.ofJson?_toJson hb.tool)
  simp -implicitDefEqProofs [ofJson?, hrecord, htimeout, hmodel, htool]

end Budget

/-- A choice of one tool is an object, whatever the name of the tool is, so it is not mistaken for
one of the words. -/
theorem ToolChoice.ofJson?_toJson (c : ToolChoice) : ToolChoice.ofJson? c.toJson = some c := by
  cases c <;> rfl

theorem EffortLevel.ofJson?_toJson (l : EffortLevel) : EffortLevel.ofJson? l.toJson = some l := by
  cases l <;> rfl

theorem AgentMode.ofJson?_toJson (m : AgentMode) : AgentMode.ofJson? m.toJson = some m := by
  cases m <;> rfl

namespace ComputePolicy

/-- The bound on the tokens fits in 32 bits, if there is one. Nothing has to be asked of the
temperature, which is a finite number by its type: JSON has no way to write another. -/
def InRange (c : ComputePolicy) : Prop := ∀ n ∈ c.maxTokens, n < Text.word32

theorem ofJson?_toJson {c : ComputePolicy} (hc : c.InRange) : ofJson? c.toJson = some c := by
  let r : Record := Record.maybe "reasoning_effort" EffortLevel.toJson c.reasoningEffort ++
    Record.maybe "temperature" (fun t => .num (.float t)) c.temperature ++
    Record.maybe "max_tokens" .nat c.maxTokens ++
    [("parallel_tool_calls", .bool c.parallelToolCalls)]
  have hkeys : (r.map Prod.fst).Sublist
      (["reasoning_effort"] ++ ["temperature"] ++ ["max_tokens"] ++ ["parallel_tool_calls"]) :=
    Record.keys_append (Record.keys_append (Record.keys_append
      (Record.keys_maybe c.reasoningEffort) (Record.keys_maybe c.temperature))
      (Record.keys_maybe c.maxTokens)) (.refl _)
  have hrecord : c.toJson.record? outline.names = some r := Json.record?_obj (by decide) hkeys
  have heffort : r.optional "reasoning_effort" EffortLevel.ofJson? = some c.reasoningEffort :=
    Record.optional_of EffortLevel.toJson (by simp [r, List.lookup_append, List.lookup_cons])
      (by simp [EffortLevel.toJson]) fun l _ => EffortLevel.ofJson?_toJson l
  have htemperature : r.optional "temperature" Json.float? = some c.temperature :=
    Record.optional_of (fun t => .num (.float t))
      (by simp [r, List.lookup_append, List.lookup_cons]) (by simp)
      fun _ _ => rfl
  have htokens : r.optional "max_tokens" Json.word32? = some c.maxTokens :=
    Record.optional_of .nat (by simp [r, List.lookup_append, List.lookup_cons]) (by simp [Json.nat])
      fun n hn => Json.word32?_nat (hc n hn)
  have hparallel : r.orElse "parallel_tool_calls" false Json.bool? = some c.parallelToolCalls := by
    simp [r, Record.orElse, List.lookup_append, Json.bool?]
  simp [ofJson?, hrecord, heffort, htemperature, htokens, hparallel]

end ComputePolicy

namespace RunSpec

/-- The numbers of the limits and of the settings fit in their words. -/
structure InRange (s : RunSpec) : Prop where
  budget : s.budget.InRange
  compute : s.compute.InRange

theorem ofJson?_toJson {s : RunSpec} (hs : s.InRange) : ofJson? s.toJson = some s := by
  have hrecord : s.toJson.record? outline.names = some _ :=
    Json.record?_obj (by decide) (List.Sublist.refl _)
  have hbudget : Budget.ofJson? s.budget.toJson = some s.budget := Budget.ofJson?_toJson hs.budget
  have hchoice : ToolChoice.ofJson? s.toolChoice.toJson = some s.toolChoice :=
    ToolChoice.ofJson?_toJson s.toolChoice
  have hcompute : ComputePolicy.ofJson? s.compute.toJson = some s.compute :=
    ComputePolicy.ofJson?_toJson hs.compute
  simp -implicitDefEqProofs [ofJson?, hrecord, Record.orElse, List.lookup_cons, hbudget, hchoice,
    hcompute]

end RunSpec

/-- A stage with an empty list of tools has no tools, and one without a list has the agent's: the
document tells them apart. -/
theorem StagePrompt.ofJson?_toJson (s : StagePrompt) : StagePrompt.ofJson? s.toJson = some s := by
  let r : Record := Record.maybe "system_prompt" .str s.systemPrompt ++
    Record.maybe "tools" (Json.list .str) s.tools
  have hkeys : (r.map Prod.fst).Sublist (["system_prompt"] ++ ["tools"]) :=
    Record.keys_append (Record.keys_maybe s.systemPrompt) (Record.keys_maybe s.tools)
  have hrecord : s.toJson.record? StagePrompt.outline.names = some r :=
    Json.record?_obj (by decide) hkeys
  have hprompt : r.optional "system_prompt" Json.str? = some s.systemPrompt :=
    Record.optional_text (by simp [r, List.lookup_append])
  have htools : r.optional "tools" (Json.list? Json.str?) = some s.tools :=
    Record.optional_of (Json.list .str) (by simp [r, List.lookup_append]) (by simp [Json.list])
      fun names _ => Json.list?_texts names
  simp [StagePrompt.ofJson?, hrecord, hprompt, htools]

theorem StageOverrides.ofJson?_toJson (s : StageOverrides) :
    StageOverrides.ofJson? s.toJson = some s := by
  have hrecord : s.toJson.record? StageOverrides.outline.names = some _ :=
    Json.record?_obj (by decide) (List.Sublist.refl _)
  simp [StageOverrides.ofJson?, hrecord, Record.orElse, List.lookup_cons,
    StagePrompt.ofJson?_toJson]

namespace Agent

/-- The numbers of the limits and of the settings fit in their words. -/
structure InRange (a : Agent) : Prop where
  runSpec : a.runSpec.InRange
  maxSteps : ∀ n ∈ a.maxSteps, n < Text.word32

/-- The id is always written, so the reader never gives an agent another. -/
theorem ofJson?_toJson (fresh : String) {a : Agent} (ha : a.InRange) :
    ofJson? fresh a.toJson = some a := by
  -- All parts but the last are always written.
  let known : Record := [("id", .str a.id), ("name", .str a.name), ("model", .str a.model),
    ("provider", .str a.provider), ("system_prompt", .str a.systemPrompt),
    ("tools", Json.list .str a.tools), ("skills", Json.list .str a.skills),
    ("mode", a.mode.toJson), ("run_spec", a.runSpec.toJson), ("stages", a.stages.toJson)]
  let r : Record := known ++ Record.maybe "max_steps" .nat a.maxSteps
  have hkeys : (r.map Prod.fst).Sublist (known.map Prod.fst ++ ["max_steps"]) :=
    Record.keys_append (.refl _) (Record.keys_maybe a.maxSteps)
  have hrecord : a.toJson.record? outline.names = some r := Json.record?_obj (by decide) hkeys
  have htools : (Json.list .str a.tools).list? Json.str? = some a.tools := Json.list?_texts a.tools
  have hskills : (Json.list .str a.skills).list? Json.str? = some a.skills :=
    Json.list?_texts a.skills
  have hmode : AgentMode.ofJson? a.mode.toJson = some a.mode := AgentMode.ofJson?_toJson a.mode
  have hrunSpec : RunSpec.ofJson? a.runSpec.toJson = some a.runSpec :=
    RunSpec.ofJson?_toJson ha.runSpec
  have hstages : StageOverrides.ofJson? a.stages.toJson = some a.stages :=
    StageOverrides.ofJson?_toJson a.stages
  have hsteps : r.optional "max_steps" Json.word32? = some a.maxSteps :=
    Record.optional_of .nat (by simp [r, known, List.lookup_cons])
      (by simp [Json.nat]) fun n hn => Json.word32?_nat (ha.maxSteps n hn)
  have hparts : ∀ name ∈ known.map Prod.fst, r.lookup name = known.lookup name := by
    simp [r, known, List.lookup_cons]
  simp -implicitDefEqProofs [ofJson?, hrecord, hsteps, Record.required, Record.orElse, hparts,
    known, List.lookup_cons, htools, hskills, hmode, hrunSpec, hstages]

end Agent

/-! ## All documents -/

/-- Reading the document of an event, a message, a chunk, a plan or an agent gives back the value
that was written, under whatever id an agent without one would be given. -/
theorem documents_read_back :
    (∀ e : Event, e.InRange → Event.ofJson? e.toJson = some e)
      ∧ (∀ m : Message, m.InRange → Message.ofJson? m.toJson = some m)
      ∧ (∀ c : Chunk, c.InRange → Chunk.ofJson? c.toJson = some c)
      ∧ (∀ p : Plan, Plan.ofJson? p.toJson = some p)
      ∧ ∀ (fresh : String) (a : Agent), a.InRange → Agent.ofJson? fresh a.toJson = some a := by
  refine ⟨?events, ?messages, ?chunks, ?plans, ?agents⟩
  case events =>
    intro e he
    exact Event.ofJson?_toJson he
  case messages =>
    intro m hm
    exact Message.ofJson?_toJson hm
  case chunks =>
    intro c hc
    exact Chunk.ofJson?_toJson hc
  case plans =>
    intro p
    exact Plan.ofJson?_toJson p
  case agents =>
    intro fresh a ha
    exact Agent.ofJson?_toJson fresh ha

/-- A result of several depths with `null` in it, an answer whose reasoning is the empty text and
whose calls have no arguments and nested ones, a chunk with an empty piece of text and a call
without an id, and an agent whose planning stage has no tools and whose call limits are the greatest
there are. -/
theorem least_parts_read_back :
    let result : Json := .obj [("error", .null), ("rows", .arr [.obj [("day", .str ""),
      ("hours", .arr [.int 8, .int (-1)])], .obj []])]
    let call : Fragment := ⟨some 0, none, some "", none, some ""⟩
    let answer : AssistantMessage := ⟨"", some "", [⟨"c1", "echo", .null⟩, ⟨"c2", "log", result⟩]⟩
    let planner : Agent := { Agent.ofName "a1" "planner" "m" with
      runSpec := { RunSpec.default with
        budget := ⟨0, ⟨4294967295, 18446744073709551615, 4294967295⟩, .unlimited⟩ }
      stages := { StageOverrides.default with plan := ⟨some "", some []⟩ }
      maxSteps := some 0 }
    Event.ofJson? (Event.toJson (.toolResult "c1" result)) = some (.toolResult "c1" result)
      ∧ Message.ofJson? (Message.toJson (.assistant answer)) = some (.assistant answer)
      ∧ Chunk.ofJson? (Chunk.toJson ⟨some "", none, [call], some "", none⟩)
        = some ⟨some "", none, [call], some "", none⟩
      ∧ Agent.ofJson? "fresh" planner.toJson = some planner := by
  intro result call answer planner
  obtain ⟨hevents, hmessages, hchunks, _, hagents⟩ := documents_read_back
  have hkept : result.IsCanonical := by decide
  have hanswer : (Message.assistant answer).InRange := by
    intro b hb
    obtain rfl | rfl : b = ⟨"c1", "echo", .null⟩ ∨ b = ⟨"c2", "log", result⟩ := by
      simpa [answer] using hb
    · exact .null
    · exact hkept
  have hcall : call.InRange := by
    intro n hn
    obtain rfl : 0 = n := by simpa [call] using hn
    decide
  have hchunk : Chunk.InRange ⟨some "", none, [call], some "", none⟩ :=
    ⟨by simpa using hcall, by simp⟩
  have hplanner : planner.InRange :=
    ⟨⟨⟨by decide, ⟨by decide, by decide, by decide⟩, ⟨by decide, by decide, by decide⟩⟩,
      by simp [ComputePolicy.InRange, planner, RunSpec.default, ComputePolicy.default]⟩,
      by simp [planner, Text.word32]⟩
  exact ⟨hevents (.toolResult "c1" result) hkept, hmessages _ hanswer, hchunks _ hchunk,
    hagents "fresh" _ hplanner⟩

end AgentRun
