import AgentRun.Identifier
import AgentRun.Json.Document
import AgentRun.Text.Blank

/-!
# Plans

A plan is the ordered list of the tasks of a run. Tasks are only ever added at the end, and a task
that is no longer open keeps its status. The document of a plan seeds a later run with it.
-/

namespace AgentRun

/-- How far a task has come. Only a task in `init` is open. -/
inductive TaskStatus where
  /-- Not worked off yet. -/
  | init
  /-- Done. -/
  | completed
  /-- Given up by the model, or out of rounds. -/
  | failed
  /-- Dropped. -/
  | canceled
  deriving DecidableEq, Repr

namespace TaskStatus

/-- Whether the status is final. -/
def isTerminal : TaskStatus → Bool
  | .init => false
  | _ => true

/-- The name of a status. -/
def text : TaskStatus → String
  | .init => "init"
  | .completed => "completed"
  | .failed => "failed"
  | .canceled => "canceled"

/-- The statuses by their names. -/
def words : List (String × TaskStatus) :=
  [("init", .init), ("completed", .completed), ("failed", .failed), ("canceled", .canceled)]

/-- Reads a status with blanks around it, in any case, with one or two l in the last of them. -/
def parse? (s : String) : Option TaskStatus :=
  (("cancelled", .canceled) :: words).lookup (Text.asciiLower (Text.trim s))

/-- The document of a status. -/
def toJson (s : TaskStatus) : Json := .str s.text

/-- Reads the document of a status. -/
def ofJson? : Json → Option TaskStatus := Json.word? words

instance : Documented TaskStatus := ⟨.whole, ofJson?, toJson⟩

end TaskStatus

/-- A task of a plan. -/
structure PlanTask where
  /-- The name of the task. -/
  taskId : String
  /-- What is to be done. -/
  description : String
  /-- How far it has come. -/
  status : TaskStatus
  deriving DecidableEq, Repr

namespace PlanTask

/-- Whether the task is still to be worked off. -/
def isOpen (t : PlanTask) : Bool := !t.status.isTerminal

/-- The document of a task. -/
def toJson (t : PlanTask) : Json :=
  .obj [("task_id", .str t.taskId), ("description", .str t.description),
    ("status", t.status.toJson)]

/-- What is looked at of the document of a task. -/
def outline : Outline :=
  .flat ["task_id", "description", "status"]

/-- Reads the document of a task, with a given reader of its status. -/
def read? (status : Json → Option TaskStatus) (j : Json) : Option PlanTask := do
  let r ← j.record? outline.names
  return {
    taskId := ← r.required "task_id" Json.str?
    description := ← r.required "description" Json.str?
    status := ← r.required "status" status }

/-- Reads the document of a task. -/
def ofJson? : Json → Option PlanTask := read? TaskStatus.ofJson?

instance : Documented PlanTask := ⟨outline, ofJson?, toJson⟩

end PlanTask

/-- A plan with its tasks in order. -/
structure Plan where
  /-- The name of the plan. -/
  planId : String
  tasks : List PlanTask
  deriving DecidableEq, Repr

/-- Why a change of a plan is refused. -/
inductive PlanError where
  /-- No task has the name. -/
  | unknownTask (taskId : String)
  /-- The task has a final status already. -/
  | alreadyTerminal (taskId : String) (status : TaskStatus)
  /-- The description of a new task is blank. -/
  | emptyDescription
  deriving DecidableEq, Repr

/-- The words for a refusal. -/
def PlanError.message : PlanError → String
  | .unknownTask taskId => "unknown task: " ++ taskId
  | .alreadyTerminal taskId status =>
    "task " ++ taskId ++ " is already " ++ status.text ++ " and cannot change"
  | .emptyDescription => "empty task description"

namespace Plan

/-- The task with a name; of equal names the first. -/
def task? (p : Plan) (taskId : String) : Option PlanTask :=
  p.tasks.find? fun t => t.taskId == taskId

/-- The first open task. -/
def nextOpen? (p : Plan) : Option PlanTask := p.tasks.find? PlanTask.isOpen

/-- Whether a task is open. -/
def hasOpen (p : Plan) : Bool := p.tasks.any PlanTask.isOpen

/-- Adds an open task at the end. -/
def add? (p : Plan) (taskId description : String) : Except PlanError Plan :=
  if Text.isBlankText description then .error .emptyDescription
  else .ok { p with tasks := p.tasks ++ [⟨taskId, description, .init⟩] }

/-- Gives the first task with a name a status. -/
def mark (taskId : String) (status : TaskStatus) : List PlanTask → List PlanTask
  | [] => []
  | t :: rest =>
    if t.taskId = taskId then { t with status := status } :: rest
    else t :: mark taskId status rest

/-- Sets the status of a task. An open task takes any status; a task with a final status takes
only that status again. -/
def setStatus? (p : Plan) (taskId : String) (status : TaskStatus) : Except PlanError Plan :=
  match p.task? taskId with
  | none => .error (.unknownTask taskId)
  | some t =>
    if t.status.isTerminal then
      if t.status = status then .ok p else .error (.alreadyTerminal taskId t.status)
    else .ok { p with tasks := mark taskId status p.tasks }

/-- A task that is dropped if it is open. -/
def cancel (t : PlanTask) : PlanTask := if t.isOpen then { t with status := .canceled } else t

/-- Drops every open task. -/
def cancelOpen (p : Plan) : Plan := { p with tasks := p.tasks.map cancel }

/-- The number of open tasks. -/
def openCount (p : Plan) : Nat := p.tasks.countP PlanTask.isOpen

/-- The document of a plan. -/
def toJson (p : Plan) : Json :=
  .obj [("plan_id", .str p.planId), ("tasks", Json.list PlanTask.toJson p.tasks)]

/-- What is looked at of the document of a plan. -/
def outline : Outline :=
  .record [("plan_id", .whole), ("tasks", .list PlanTask.outline)]

/-- Reads the document of a plan, with a given reader of the status of a task. -/
def read? (status : Json → Option TaskStatus) (j : Json) : Option Plan := do
  let r ← j.record? outline.names
  return {
    planId := ← r.required "plan_id" Json.str?
    tasks := ← r.required "tasks" (Json.list? (PlanTask.read? status)) }

/-- Reads the document of a plan. -/
def ofJson? : Json → Option Plan := read? TaskStatus.ofJson?

instance : Documented Plan := ⟨outline, ofJson?, toJson⟩

end Plan

end AgentRun
