import AgentRun.CommandLine.Session
import Std.Time.DateTime.Timestamp

/-!
# The command line

The program carries out one command: it reads the files that the arguments name, hands them to
`CommandLine.session` and prints what comes out of it.
-/

namespace AgentRun.CommandLine

/-- How the program is used. -/
def usageText : String :=
  "Staged agent-run orchestration engine\n\n" ++
  "Usage: conductor [OPTIONS] <COMMAND>\n\n" ++
  "Commands:\n" ++
  "  run    Run one turn and print its events\n" ++
  "  tools  Print the built-in demo tools as JSON\n" ++
  "  help   Print this message\n\n" ++
  "Options of run:\n" ++
  "      --agent <AGENT>      Agent definition (JSON)\n" ++
  "      --script <SCRIPT>    Scripted model responses (JSON)\n" ++
  "  -m, --message <MESSAGE>  User message for this turn\n" ++
  "      --config <CONFIG>    Engine config (JSON)\n" ++
  "      --history <HISTORY>  Prior conversation history (JSON)\n" ++
  "      --plan <PLAN>        Prior plan snapshot (JSON)\n" ++
  "      --submit <SUBMIT>    Payload for every frontend tool call\n\n" ++
  "Options:\n" ++
  "      --log-level <LEVEL>          Default log level\n" ++
  "      --log-module <MODULE=LEVEL>  Log level of a module, repeatable\n" ++
  "      --log-json                   Emit logs as JSON\n" ++
  "  -h, --help                       Print help\n" ++
  "  -V, --version                    Print version\n"

/-- The files that a command reads. -/
def filesOf (args : List String) : List String :=
  match parse args with
  | .ok (.run o) => [o.agent, o.script] ++ o.config.toList ++ o.history.toList ++ o.plan.toList
  | _ => []

/-- The settings that the environment may override. -/
def settingNames : List String :=
  ["CONDUCTOR_TOOL_WORKERS", "CONDUCTOR_EVENT_BUFFER", "CONDUCTOR_FRONTEND_SUBMIT_TIMEOUT_MS",
    "CONDUCTOR_REACT_MAX_STEPS", "CONDUCTOR_MAX_TASK_ROUNDS"]

/-- The number that the operating system gives an error; it may come with its sign turned. -/
def errorNumber (code : UInt32) : Nat := min code.toNat (Nat.pow 2 32 - code.toNat)

/-- The fault behind an error. -/
def faultOf (path : String) (e : IO.Error) : FileFault :=
  match e with
  | .noFileOrDirectory _ _ _ => .missing
  | .inappropriateType _ code _ =>
    if errorNumber code = 20 then .notDirectory else .isDirectory
  | .invalidArgument _ code _ =>
    if path.toList.contains '\x00' then .nulByte
    else if errorNumber code = 36 then .nameTooLong
    else .other (toString e)
  | .permissionDenied _ _ _ => .other "Permission denied (os error 13)"
  | .userError _ => .notText
  | e => .other (toString e)

/-- The text of a file. -/
def readText (path : String) : IO (Except FileFault String) := do
  try return .ok (← IO.FS.readFile path)
  catch e => return .error (faultOf path e)

/-- The date and the time that is so many milliseconds after the start of 1970. -/
def todayAt (ms : Nat) : Today :=
  let seconds := ms / 1000
  let date := (Date.ofNumber ((⟨1970, 1, 1⟩ : Date).number + seconds / 86400)).text
  let clock := [seconds / 3600 % 24, seconds / 60 % 60, seconds % 60].map (Text.padded 2)
  ⟨date, date ++ "T" ++ ":".intercalate clock ++ "." ++ Text.padded 3 (ms % 1000) ++ "+00:00"⟩

/-- All that a session can see, as it is at this moment. -/
def look (args : List String) : IO Surroundings := do
  let files ← (filesOf args).mapM fun path => return (path, ← readText path)
  let settings ← settingNames.mapM fun name => return (name, ← IO.getEnv name)
  let ms := (← Std.Time.Timestamp.now).toMillisecondsSinceUnixEpoch.toInt.toNat
  let start ← IO.rand 0 (Nat.pow 2 62)
  return {
    file := fun path => (files.lookup path).getD (.error .missing)
    setting := fun name => (settings.lookup name).join
    supply := fun n => Uuid.timed ms (start * 4096 + n)
    today := todayAt ms }

end AgentRun.CommandLine

open AgentRun.CommandLine in
/-- Carries out the command that the arguments make. -/
def main (args : List String) : IO UInt32 := do
  let result := session (← look args) args
  match result with
  | .output text => IO.print text
  | .failure message => IO.eprintln ("Error: " ++ message)
  | .breakdown message => IO.eprintln message
  | .refused .usage => IO.eprint usageText
  | .refused .help => IO.print usageText
  | .refused .version => IO.print result.stdout
  return result.exitCode.toUInt32
