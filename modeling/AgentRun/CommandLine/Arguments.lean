import AgentRun.LogFilter

/-!
# Arguments of the command line

The command has two subcommands, options of each and options that may stand before or behind the
subcommand. `parse` reads the arguments; what comes of them is a command to carry out, a text to
show, or a usage error.

A value that stands as an argument of its own is only looked at when the next option of its level
comes, or at the end of the arguments, so that an error in it is found after a help text that
the subcommand gives.
-/

namespace AgentRun.CommandLine

/-- The options that take a value. -/
inductive Key where
  | logLevel
  /-- The log level of a module. -/
  | logModule
  /-- The file of the agent. -/
  | agent
  /-- The file of the model's answers. -/
  | script
  /-- What the user says. -/
  | message
  /-- The file of the settings. -/
  | config
  /-- The file of the conversation before. -/
  | history
  /-- The file of the plan before. -/
  | plan
  /-- What is submitted for every frontend call. -/
  | submit
  deriving DecidableEq, Repr

/-- The options by their names, with those that only `run` has last. -/
def keyWords : List (String × Key) :=
  [("log-level", .logLevel), ("log-module", .logModule), ("agent", .agent), ("script", .script),
    ("message", .message), ("config", .config), ("history", .history), ("plan", .plan),
    ("submit", .submit)]

/-- Where an option stands. -/
inductive Level where
  /-- In front of the subcommand. -/
  | top
  /-- Behind `run`. -/
  | run
  /-- Behind `tools`. -/
  | tools
  deriving DecidableEq, Repr

/-- Whether an option is known at a level. -/
def Key.isKnown (k : Key) (level : Level) : Bool :=
  k == .logLevel || k == .logModule || level == .run

/-- Whether an option may be repeated. -/
def Key.isRepeatable (k : Key) : Bool := k == .logModule

/-- Whether a value is one for an option. A file must have a name. -/
def Key.accepts (k : Key) (value : String) : Bool :=
  match k with
  | .logLevel => (LogLevel.parse? value).isSome
  | .logModule => (LogFilter.parseModule? value).isSome
  | .message => true
  | .submit => true
  | _ => value != ""

/-- What keeps the arguments from being a command. -/
inductive Refusal where
  /-- They are wrong. -/
  | usage
  /-- They ask for help. -/
  | help
  /-- They ask for the version. -/
  | version
  deriving DecidableEq, Repr

/-- The options of a level as far as they are read. -/
structure Options where
  values : List (Key × String)
  /-- Whether the log is to be JSON. -/
  logJson : Bool
  /-- An option whose value is not looked at yet, or still to come. -/
  pending : Option (Key × Option String)
  deriving DecidableEq, Repr

/-- No options. -/
def Options.none : Options := ⟨[], false, Option.none⟩

/-- Looks at the value of an option. -/
def Options.accept (o : Options) (k : Key) (value : String) : Except Refusal Options :=
  if !k.accepts value then .error .usage
  else if !k.isRepeatable && o.values.any fun v => v.1 == k then .error .usage
  else .ok { o with values := o.values ++ [(k, value)] }

/-- Looks at the value that was put off. An option whose value did not come is an error. -/
def Options.settle (o : Options) : Except Refusal Options :=
  match o.pending with
  | Option.none => .ok o
  | some (k, some value) => { o with pending := Option.none }.accept k value
  | some (_, Option.none) => .error .usage

/-- An option with its value attached to it, or with its value in the next argument. -/
def Options.option (o : Options) (k : Key) (value : Option String) : Except Refusal Options := do
  let o ← o.settle
  match value with
  | some v => o.accept k v
  | Option.none => return { o with pending := some (k, Option.none) }

/-- The parts of a text before and behind its first `=`, if there is one. -/
def splitValue (cs : List Char) : List Char × Option String :=
  match LogFilter.splitAtEquals cs with
  | some (name, value) => (name, some (String.ofList value))
  | none => (cs, none)

/-- An option in its long form, without the hyphens. -/
def longOption (level : Level) (cs : List Char) (o : Options) : Except Refusal Options := do
  let (name, value) := splitValue cs
  let name := String.ofList name
  if name = "help" ∧ value.isNone then
    let _ ← o.settle
    throw .help
  if name = "version" ∧ level = .top ∧ value.isNone then
    let _ ← o.settle
    throw .version
  if name = "log-json" ∧ value.isNone then
    let o ← o.settle
    if o.logJson then throw .usage
    return { o with logJson := true }
  match (keyWords.lookup name).filter fun k => k.isKnown level with
  | some k => o.option k value
  | none => throw .usage

/-- An option in its short form, without the hyphen. The value of `-m` may be attached. -/
def shortOption (level : Level) (cs : List Char) (o : Options) : Except Refusal Options := do
  match cs with
  | 'h' :: _ =>
    let _ ← o.settle
    throw .help
  | 'V' :: _ =>
    if level = .top then
      let _ ← o.settle
      throw .version
    else throw .usage
  | 'm' :: rest =>
    if level = .run then
      match rest with
      | [] => o.option .message none
      | '=' :: value => o.option .message (some (String.ofList value))
      | value => o.option .message (some (String.ofList value))
    else throw .usage
  | _ => throw .usage

/-- The options of a level and the arguments from the first on that is neither an option nor a
value. Behind `--` no options are looked for. -/
def readOptions (level : Level) : Options → List String → Except Refusal (Options × List String)
  | o, [] => .ok (o, [])
  | o, arg :: rest =>
    match arg.toList with
    | ['-', '-'] => if rest.isEmpty then .ok (o, []) else .error .usage
    | '-' :: '-' :: name => do
      let o ← longOption level name o
      readOptions level o rest
    | '-' :: c :: cs => do
      let o ← shortOption level (c :: cs) o
      readOptions level o rest
    | _ =>
      match o.pending with
      | some (k, none) => readOptions level { o with pending := some (k, some arg) } rest
      | _ => .ok (o, arg :: rest)

/-- The options of `run`. -/
structure RunOptions where
  /-- The file of the agent. -/
  agent : String
  /-- The file of the model's answers. -/
  script : String
  /-- What the user says. -/
  message : String
  /-- The file of the settings. -/
  config : Option String
  /-- The file of the conversation before. -/
  history : Option String
  /-- The file of the plan before. -/
  plan : Option String
  /-- What is submitted for every frontend call. -/
  submit : Option String
  deriving DecidableEq, Repr

/-- What the arguments ask for. -/
inductive Command where
  /-- One turn of an agent. -/
  | run (options : RunOptions)
  /-- The list of the built-in tools. -/
  | tools
  deriving DecidableEq, Repr

/-- The options of `run`, if those are there that must be. -/
def Options.toRun? (o : Options) : Option RunOptions := do
  let value (k : Key) := o.values.lookup k
  return {
    agent := ← value .agent
    script := ← value .script
    message := ← value .message
    config := value .config
    history := value .history
    plan := value .plan
    submit := value .submit }

/-- The options behind a subcommand, with nothing left over. -/
def readLast (level : Level) (args : List String) : Except Refusal Options := do
  let (o, rest) ← readOptions level .none args
  if rest.isEmpty then o.settle else throw .usage

/-- What `help` is asked about. -/
def helpOn (topics : List String) : Refusal :=
  match topics with
  | [] => .help
  | [topic] => if ["run", "tools", "help"].contains topic then .help else .usage
  | _ => .usage

/-- Reads the arguments. -/
def parse (args : List String) : Except Refusal Command := do
  let (top, rest) ← readOptions .top .none args
  match rest with
  | "help" :: topics => throw (helpOn topics)
  | "tools" :: rest =>
    let _ ← readLast .tools rest
    let _ ← top.settle
    return .tools
  | "run" :: rest =>
    let o ← readLast .run rest
    match o.toRun? with
    | none => throw .usage
    | some options =>
      let _ ← top.settle
      return .run options
  | _ => throw .usage

end AgentRun.CommandLine
