import AgentRun.CommandLine.Arguments
import AgentRun.CommandLine.DemoTools
import AgentRun.CommandLine.Files
import AgentRun.Json.Printer
import AgentRun.Run.Engine
import AgentRun.Script.Reply

/-!
# Carrying out a command

A session is what the command does with its arguments: it reads the files that they name, drives
one turn of the agent against the scripted answers and prints the events, one JSON line each. It is
a function of the files and the environment; `Result` holds all that comes out of it.
-/

namespace AgentRun.CommandLine

/-- What a session can see. -/
structure Surroundings where
  /-- The text of the file at a path. -/
  file : String → Except FileFault String
  /-- The value of a variable of the environment. -/
  setting : String → Option String
  /-- The supply of UUIDs. -/
  supply : Supply
  /-- The date of today. -/
  today : Today

/-- What comes out of a session. -/
inductive Result where
  /-- The output of a command that was carried out. -/
  | output (text : String)
  /-- A command that failed, with the reason. -/
  | failure (message : String)
  /-- A command that broke down, with the last words. -/
  | breakdown (message : String)
  /-- Arguments that are not a command. -/
  | refused (refusal : Refusal)
  deriving DecidableEq, Repr

/-- The name and the version of the program. -/
def versionLine : String := "conductor 0.1.0"

/-- The exit code of a result. -/
def Result.exitCode : Result → Nat
  | .output _ => 0
  | .failure _ => 1
  | .breakdown _ => 101
  | .refused .usage => 2
  | .refused _ => 0

/-- The output of a result. The texts of help and usage are left to the caller. -/
def Result.stdout : Result → String
  | .output text => text
  | .refused .version => versionLine ++ "\n"
  | _ => ""

/-- Reads a file as a document. -/
def readDocument {α : Type} [Documented α] (s : Surroundings) (path : String) : Except String α :=
  match s.file path with
  | .error _ => .error ("failed to read " ++ path)
  | .ok text =>
    match Documented.ofText? text with
    | none => .error ("failed to parse " ++ path)
    | some value => .ok value

/-- Reads a file as a document, if one is named. -/
def readNamed {α : Type} [Documented α] (s : Surroundings) (path : Option String) :
    Except String (Option α) :=
  match path with
  | none => .ok none
  | some path => (readDocument s path).map some

/-- The payload for frontend calls. -/
def readSubmit (text : Option String) : Except String (Option Json) :=
  match text with
  | none => .ok none
  | some text =>
    match Json.readFree text with
    | .ok value => .ok (some value)
    | .error _ => .error "--submit is not valid JSON"

/-- The settings in a file. -/
def readConfigFile (file : String → Except FileFault String) (path : String) :
    Except ConfigError Config :=
  match file path with
  | .error fault => .error (.unreadable path fault.message)
  | .ok text => Config.ofText text

/-- The settings, from their file if one is named, with the overrides of the environment. -/
def readConfig (s : Surroundings) (path : Option String) : Except ConfigError Config := do
  let config ← match path with
    | none => .ok Config.default
    | some path => readConfigFile s.file path
  config.withOverrides s.setting

/-- A client that submits a payload for every frontend call at once. -/
def submitter (payload : Json) : Client where
  patience := none
  react runId taken :=
    match taken.getLast? with
    | some (.toolCall piece) =>
      if piece.callType = some ToolKind.frontend.text then
        [⟨none, .submit taken.length ⟨runId, piece.id⟩ payload⟩]
      else []
    | _ => []

/-- How many tasks of a plan a session follows. -/
def taskLimit : Nat := 1000000

/-- The text of events, a line each. -/
def eventLines (events : List Event) : String :=
  String.join (events.map fun e => e.toJson.text ++ "\n")

/-- One turn of an agent. -/
def runTurn (s : Surroundings) (o : RunOptions) : Except String Result := do
  let agent ← @readDocument _ (Agent.documented (IdKind.agent.mint s.supply 0)) s o.agent
  let script : List (List Chunk) ← readDocument s o.script
  let history : Option (List Message) ← readNamed s o.history
  let plan : Option Plan ← readNamed s o.plan
  let payload ← readSubmit o.submit
  let config ← (readConfig s o.config).mapError ConfigError.message
  if let some message := config.breakdown? then
    return .breakdown message
  let queue : Script.Queue := ⟨script.map fun chunks => Script.ofChunks chunks .done, none⟩
  let engine : Engine := {
    supply := s.supply
    model := queue.model
    tools := .ofList demoTools
    bodies := demoBodies s.today
    skills := .empty
    config := config }
  let turn : UserTurn := {
    agent := agent
    history := history.getD []
    plan := plan
    message := o.message
    client := (payload.map submitter).getD .reader }
  let world := { Run.World.new (max 1 config.toolWorkers) with minted := 1 }
  return .output (eventLines (engine.run turn world taskLimit).final.channel.taken)

/-- The list of the built-in tools. -/
def listTools : String :=
  (Json.list ToolDefinition.toJson (demoTools.map Tool.definition)).indented ++ "\n"

/-- Carries out the command that the arguments make. -/
def session (s : Surroundings) (args : List String) : Result :=
  match parse args with
  | .error refusal => .refused refusal
  | .ok .tools => .output listTools
  | .ok (.run options) =>
    match runTurn s options with
    | .ok result => result
    | .error message => .failure message

end AgentRun.CommandLine
