import AgentRun.Text.Ascii
import AgentRun.Text.Blank
import AgentRun.Text.Numeral

/-!
# Log filters

How much is logged: a level for everything and levels for single modules. The directive of a filter
is its text for the log subscriber.
-/

namespace AgentRun

/-- How much is logged. -/
inductive LogLevel where
  /-- Errors only. -/
  | error
  /-- Also warnings. -/
  | warn
  /-- Also what happens. -/
  | info
  /-- Also details. -/
  | debug
  /-- Everything. -/
  | trace
  deriving DecidableEq, Repr

namespace LogLevel

/-- The name of a level. -/
def text : LogLevel → String
  | .error => "error"
  | .warn => "warn"
  | .info => "info"
  | .debug => "debug"
  | .trace => "trace"

/-- The name of a level in capitals. -/
def label : LogLevel → String
  | .error => "ERROR"
  | .warn => "WARN"
  | .info => "INFO"
  | .debug => "DEBUG"
  | .trace => "TRACE"

/-- The levels, from the least that is logged. -/
def all : List LogLevel := [.error, .warn, .info, .debug, .trace]

/-- The level of a number from 1 to 5. -/
def ofNumber? (n : Nat) : Option LogLevel := if n = 0 then none else all[n - 1]?

/-- Reads a level by its number or by its name in any case. -/
def parse? (s : String) : Option LogLevel :=
  match (Text.unsignedBelow Text.word64 s).bind ofNumber? with
  | some level => some level
  | none => all.find? fun level => level.text == Text.asciiLower s

end LogLevel

/-- A level for everything and levels for modules, each module once. -/
structure LogFilter where
  /-- The level for everything. -/
  level : LogLevel
  /-- The levels of modules, in the order in which they were first named. -/
  modules : List (String × LogLevel)
  /-- Whether the log is written as JSON. -/
  json : Bool
  deriving DecidableEq, Repr

namespace LogFilter

/-- Everything that happens, as text. -/
def default : LogFilter := ⟨.info, [], false⟩

/-- Gives a module a level, in its place if it has one already. -/
def setLevel (name : String) (level : LogLevel) :
    List (String × LogLevel) → List (String × LogLevel)
  | [] => [(name, level)]
  | (m, l) :: rest =>
    if m = name then (m, level) :: rest else (m, l) :: setLevel name level rest

/-- The filter with a level for a module. -/
def withModule (f : LogFilter) (name : String) (level : LogLevel) : LogFilter :=
  { f with modules := setLevel name level f.modules }

/-- The parts of a text before and behind its first `=`. -/
def splitAtEquals : List Char → Option (List Char × List Char)
  | [] => none
  | '=' :: rest => some ([], rest)
  | c :: rest => (splitAtEquals rest).map fun (before, behind) => (c :: before, behind)

/-- Reads a module with its level, as in `engine=debug`, with blanks allowed around both. -/
def parseModule? (s : String) : Option (String × LogLevel) := do
  let (name, level) ← splitAtEquals s.toList
  let name := Text.trim (String.ofList name)
  if name = "" then none
  let level ← LogLevel.parse? (Text.trim (String.ofList level))
  return (name, level)

/-- The directive of a module. -/
def modulePart (m : String × LogLevel) : String := m.1 ++ "=" ++ m.2.text

/-- The directive of a filter: its level and then its modules, with commas between them. -/
def directive (f : LogFilter) : String :=
  ",".intercalate (f.level.text :: f.modules.map modulePart)

end LogFilter

end AgentRun
