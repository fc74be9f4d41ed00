import BenchLog.Config.Basic

/-!
# `BenchLog.CommandLine` — what the arguments ask for

There are two commands: one mines the logs given with it, the other runs the jobs of a settings file. An
option has a value, attached to its name or as the next argument; an argument that looks like an option
is never the value of another. An option that waits for its value, or whose value came as an argument of
its own, is settled only when the next option or log comes or the arguments end, so an unknown option
that comes first is the error that is reported. Behind two dashes every argument is a log.

## Contents
- `UsageError` and its wording, `MineOptions`, `Command`, and `MineOptions.config`;
- `Option`s and flags: `Setting`, `CommandSpec`;
- `Parse`, the state of a run over the arguments, and its steps;
- `Command.ofArguments`.
-/

namespace BenchLog

/-- Why the arguments are not carried out. -/
inductive UsageError where
  | help
  | version
  | nothingGiven
  | missingArgument
  | unknownArgument
  | unknownCommand
  | invalidValue
  | unexpectedValue
  | repeatedOption
deriving DecidableEq, Repr

/-- The wording of a `UsageError`; the first two are no complaints. -/
def UsageError.message : UsageError → String
  | .help => "usage: bmine mine [--variant KIND] [--name NAME] [--out-dir DIR] LOG...\n"
      ++ "       bmine sweep --config FILE"
  | .version => "bmine 0.4.0"
  | .nothingGiven => "a command is required: mine or sweep"
  | .missingArgument => "a required argument is missing"
  | .unknownArgument => "unknown argument"
  | .unknownCommand => "unknown command"
  | .invalidValue => "an option has no value or an invalid one"
  | .unexpectedValue => "a flag takes no value"
  | .repeatedOption => "an option is given twice"

/-- What the first command is given. -/
structure MineOptions where
  variant : Variant
  name : String
  outputDirectory : String
  logs : List String
deriving DecidableEq, Repr

/-- What the arguments ask for. -/
inductive Command where
  | mine (options : MineOptions)
  | sweep (path : String)
deriving DecidableEq, Repr

/-- Reads the logs given to the first command, up to the first that cannot be read. -/
def MineOptions.readLogs : List String → Except ConfigError (List LogSpec)
  | [] => .ok []
  | text :: texts =>
    match LogSpec.ofText? text with
    | none => .error (.logSpec text)
    | some log => (readLogs texts).map (log :: ·)

/-- The configuration of a single job that the first command asks for. -/
def MineOptions.config (o : MineOptions) : Except ConfigError Config :=
  match readLogs o.logs with
  | .error e => .error e
  | .ok logs => Config.check { outputDirectory := o.outputDirectory, jobs := [⟨o.name, o.variant, logs⟩] }

namespace CommandLine

/-! ## Options -/

/-- The options that have a value. -/
inductive Setting where
  | variant
  | name
  | outputDirectory
  | config
deriving DecidableEq, Repr

/-- Whether an option may have this value: a kind has to be known, and a path must not be empty. -/
def Setting.accepts : Setting → String → Bool
  | .variant, value => (Variant.ofName? value).isSome
  | .name, _ => true
  | .outputDirectory, value => value ≠ ""
  | .config, value => value ≠ ""

/-- What a command takes: options by their long names and by single letters, and logs. -/
structure CommandSpec where
  long : List (String × Setting)
  short : List (Char × Setting)
  takesLogs : Bool

/-- The command that mines logs. -/
def mineSpec : CommandSpec where
  long := [("variant", .variant), ("name", .name), ("out-dir", .outputDirectory)]
  short := []
  takesLogs := true

/-- The command that runs the jobs of a file. -/
def sweepSpec : CommandSpec where
  long := [("config", .config)]
  short := [('c', .config)]
  takesLogs := false

/-! ## Settling options -/

/-- The arguments read so far: options that are settled, the one that is not, and logs. -/
structure Parse where
  settled : List (Setting × String) := []
  pending : Option (Setting × Option String) := none
  logs : List String := []

/-- The value of a settled option. -/
def Parse.value? (p : Parse) (s : Setting) : Option String :=
  (p.settled.find? (·.1 = s)).map Prod.snd

/-- Settles an option with its value. -/
def Parse.give (p : Parse) (s : Setting) (value : String) : Except UsageError Parse :=
  if (p.value? s).isSome then .error .repeatedOption
  else if s.accepts value then .ok { p with settled := (s, value) :: p.settled }
  else .error .invalidValue

/-- Settles the option that is pending, if there is one. -/
def Parse.settle (p : Parse) : Except UsageError Parse :=
  match p.pending with
  | none => .ok p
  | some (_, none) => .error .invalidValue
  | some (s, some value) => { p with pending := none }.give s value

/-- An option, with or without a value attached to it. -/
def Parse.option (p : Parse) (s : Setting) (attached : Option String) : Except UsageError Parse := do
  let p ← p.settle
  match attached with
  | some value => p.give s value
  | none => .ok { p with pending := some (s, none) }

/-- A flag that ends the run, once what is pending has been settled. -/
def Parse.flag (p : Parse) (e : UsageError) : Except UsageError Parse := do
  let _ ← p.settle
  throw e

/-! ## Arguments -/

/-- The forms that an argument can have. -/
inductive Form where
  | dashes
  | long (name : String) (value : Option String)
  | short (letters : List Char)
  | plain

/-- The form of an argument. -/
def Form.of (argument : List Char) : Form :=
  match argument with
  | ['-', '-'] => .dashes
  | '-' :: '-' :: cs =>
    match cs.dropWhile (· != '=') with
    | [] => .long (String.ofList cs) none
    | _ :: value => .long (String.ofList (cs.takeWhile (· != '='))) (some (String.ofList value))
  | '-' :: c :: cs => .short (c :: cs)
  | _ => .plain

/-- An argument in long form. -/
def Parse.long (p : Parse) (spec : CommandSpec) (name : String) (value : Option String) :
    Except UsageError Parse :=
  if name = "help" then
    if value.isSome then .error .unexpectedValue else p.flag .help
  else
    match spec.long.find? (·.1 = name) with
    | some (_, s) => p.option s value
    | none => .error .unknownArgument

/-- What is attached to a letter: the letters after it, or what stands behind an equals sign there. -/
def attached? : List Char → Option String
  | [] => none
  | '=' :: cs => some (String.ofList cs)
  | cs => some (String.ofList cs)

/-- An argument of single letters. No letter of these commands leaves others to be read after it. -/
def Parse.short (p : Parse) (spec : CommandSpec) : List Char → Except UsageError Parse
  | [] => .ok p
  | c :: cs =>
    if c = 'h' then p.flag .help
    else
      match spec.short.find? (·.1 = c) with
      | some (_, s) => p.option s (attached? cs)
      | none => .error .unknownArgument

/-- A log. -/
def Parse.log (p : Parse) (spec : CommandSpec) (argument : String) : Except UsageError Parse :=
  if spec.takesLogs then do
    let p ← p.settle
    return { p with logs := p.logs ++ [argument] }
  else .error .unknownArgument

/-- An argument that is neither an option nor two dashes. -/
def Parse.plain (p : Parse) (spec : CommandSpec) (argument : String) : Except UsageError Parse :=
  match p.pending with
  | some (s, none) => .ok { p with pending := some (s, some argument) }
  | _ => p.log spec argument

/-- Reads arguments from left to right. -/
def Parse.read (p : Parse) (spec : CommandSpec) : List String → Except UsageError Parse
  | [] => p.settle
  | argument :: rest =>
    match Form.of argument.toList with
    | .dashes => do
      let p ← rest.foldlM (fun p argument => p.log spec argument) p
      p.settle
    | .long name value => do (← p.long spec name value).read spec rest
    | .short letters => do (← p.short spec letters).read spec rest
    | .plain => do (← p.plain spec argument).read spec rest

/-! ## Commands -/

/-- The output directory: from the arguments, else from the environment, else the default. -/
def outputDirectory (p : Parse) (environment? : Option String) : Except UsageError String :=
  match p.value? .outputDirectory with
  | some value => .ok value
  | none =>
    match environment? with
    | some value => if Setting.outputDirectory.accepts value then .ok value else .error .invalidValue
    | none => .ok Config.defaultDirectory

/-- The name of the tables if none is given. -/
def defaultName : String := "results"

/-- The command that mines logs. -/
def mine (environment? : Option String) (arguments : List String) : Except UsageError Command := do
  let p ← Parse.read {} mineSpec arguments
  let outputDirectory ← outputDirectory p environment?
  if p.logs.isEmpty then throw .missingArgument
  return .mine
    { variant := ((p.value? .variant).bind Variant.ofName?).getD .counter
      name := (p.value? .name).getD defaultName
      outputDirectory
      logs := p.logs }

/-- The command that runs the jobs of a file. -/
def sweep (arguments : List String) : Except UsageError Command := do
  let p ← Parse.read {} sweepSpec arguments
  match p.value? .config with
  | some path => return .sweep path
  | none => throw .missingArgument

/-- Whether a word names a command. -/
def isCommand (word : String) : Bool := word = "mine" || word = "sweep" || word = "help"

/-- The command that explains the others; it takes the name of one of them. -/
def explain : List String → UsageError
  | [] => .help
  | [word] => if isCommand word then .help else .unknownCommand
  | _ => .unknownCommand

/-- The first argument where it has the form of an option. -/
def leading : Form → UsageError
  | .long "help" none => .help
  | .long "version" none => .version
  | .long "help" (some _) => .unexpectedValue
  | .long "version" (some _) => .unexpectedValue
  | .short ('h' :: _) => .help
  | .short ('V' :: _) => .version
  | _ => .unknownArgument

end CommandLine

/-- The command that the arguments ask for. `environment?` is the variable of the environment that names an
output directory, if it is set. -/
def Command.ofArguments (environment? : Option String) : List String → Except UsageError Command
  | [] => .error .nothingGiven
  | word :: rest =>
    if word = "mine" then CommandLine.mine environment? rest
    else if word = "sweep" then CommandLine.sweep rest
    else if word = "help" then .error (CommandLine.explain rest)
    else
      match CommandLine.Form.of word.toList with
      | .plain => .error .unknownCommand
      | .dashes =>
        match rest with
        | [] => .error .nothingGiven
        | next :: _ =>
          .error (if CommandLine.isCommand next then .unknownArgument else .unknownCommand)
      | form => .error (CommandLine.leading form)

end BenchLog
