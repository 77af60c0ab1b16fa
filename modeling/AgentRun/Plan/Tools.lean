import AgentRun.Plan.Basic
import AgentRun.Tool.Basic

/-!
# Plan tools

Two tools of the engine itself let the model write its plan: one adds tasks and one records the
outcome of a task. A call of either changes the plan as a whole or not at all (`PlanTool.apply`).
-/

namespace AgentRun

/-- The tools that change the plan. -/
inductive PlanTool where
  /-- Adds tasks at the end. -/
  | addTasks
  /-- Records the outcome of a task. -/
  | updateTask
  deriving DecidableEq, Repr

/-- What a call changed. -/
inductive PlanChange where
  /-- New tasks, in order. -/
  | added (taskIds : List String)
  /-- The outcome of a task. -/
  | updated (taskId : String) (status : TaskStatus)
  deriving DecidableEq, Repr

/-- The result of a call that changed the plan. -/
def PlanChange.result : PlanChange → Json
  | .added taskIds => .obj [("ok", .bool true), ("task_ids", Json.list .str taskIds)]
  | .updated taskId status =>
    .obj [("ok", .bool true), ("status", status.toJson), ("task_id", .str taskId)]

namespace PlanTool

/-- The name of a plan tool. -/
def name : PlanTool → String
  | .addTasks => "plan_add_tasks"
  | .updateTask => "plan_update_task"

/-- The plan tool that a call names, with blanks around it and in any case. -/
def ofName? (s : String) : Option PlanTool :=
  if Text.sameLetters (Text.trim s) addTasks.name then some addTasks
  else if Text.sameLetters (Text.trim s) updateTask.name then some updateTask
  else none

/-- Whether a name is that of a plan tool. -/
def isName (s : String) : Bool := (ofName? s).isSome

/-- The schema of a string. -/
def stringSchema : Json := .obj [("type", .str "string")]

/-- What the model is told of a plan tool. -/
def definition : PlanTool → ToolDefinition
  | .addTasks => {
      name := addTasks.name
      description := "Append tasks to the plan, in execution order"
      parameters := .obj [
        ("properties", .obj [("tasks", .obj [
          ("description", .str "One short description per task"),
          ("items", stringSchema),
          ("type", .str "array")])]),
        ("required", .arr [.str "tasks"]),
        ("type", .str "object")] }
  | .updateTask => {
      name := updateTask.name
      description := "Record the outcome of a plan task"
      parameters := .obj [
        ("properties", .obj [
          ("status", .obj [
            ("enum", .arr [.str "completed", .str "failed", .str "canceled"]),
            ("type", .str "string")]),
          ("task_id", stringSchema)]),
        ("required", .arr [.str "task_id", .str "status"]),
        ("type", .str "object")] }

/-- The description in an item of a call that adds tasks: the item itself or its field of that
name, without the blanks around it. -/
def description? (item : Json) : Option String :=
  let text := match item.str? with
    | some s => some s
    | none => item.text? "description"
  (text.map Text.trim).filter fun d => d != ""

/-- The descriptions in a call that adds tasks. -/
def descriptions (args : Json) : Except ToolError (List String) :=
  match (args.get? "tasks").bind Json.items? with
  | none => .error (.invalidArguments "tasks array is required")
  | some items =>
    match items.mapM description? with
    | none => .error (.invalidArguments "each task needs a description")
    | some [] => .error (.invalidArguments "tasks array is empty")
    | some ds => .ok ds

/-- Adds tasks for the descriptions, with the names `fresh 0`, `fresh 1` and so on. -/
def addTasksTo (plan : Plan) (fresh : Nat → String) (ds : List String) : List String × Plan :=
  let added := ds.zipIdx.map fun (d, i) => (⟨fresh i, d, .init⟩ : PlanTask)
  (added.map PlanTask.taskId, { plan with tasks := plan.tasks ++ added })

/-- The task and the status in a call that records an outcome. -/
def outcome (args : Json) : Except ToolError (String × TaskStatus) :=
  match args.text? "task_id" with
  | none => .error (.invalidArguments "task_id is required")
  | some taskId =>
    match ((args.text? "status").bind TaskStatus.parse?).filter TaskStatus.isTerminal with
    | none => .error (.invalidArguments "status must be completed, failed or canceled")
    | some status => .ok (taskId, status)

/-- A call of a plan tool: what it changes, and the plan afterwards. -/
def apply (tool : PlanTool) (args : Json) (fresh : Nat → String) (plan : Plan) :
    Except ToolError (PlanChange × Plan) :=
  match tool with
  | .addTasks => (descriptions args).map fun ds =>
    let (taskIds, plan) := addTasksTo plan fresh ds
    (.added taskIds, plan)
  | .updateTask => do
    let (taskId, status) ← outcome args
    match plan.setStatus? taskId status with
    | .ok plan => return (.updated taskId status, plan)
    | .error e => .error (.executionFailed e.message)

end PlanTool

/-- How many names a change used up. -/
def PlanChange.minted : PlanChange → Nat
  | .added taskIds => taskIds.length
  | .updated _ _ => 0

end AgentRun
