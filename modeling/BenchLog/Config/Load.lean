import BenchLog.Config.Basic
import BenchLog.Config.Json
import BenchLog.Config.Override
import BenchLog.Config.Toml.Document

/-!
# `BenchLog.Config.Load` — a configuration from a file

A settings file is JSON if its extension says so and TOML otherwise. It has an output directory, which may
be left out, and jobs; whatever else it holds is passed over. A variable of the environment takes the
place of the output directory, whatever the file says of it. No value is converted: where a text belongs,
a text has to be. A job or a log may be written as the list of its members in order, and the kind of a job
as a table whose least name is the kind, with nothing as its value.

## Contents
- `text?`, `variant?`, `log?`, `job?`, the parts of a configuration;
- `directory?`, `jobs?` and `ofEntries?`, a configuration from the members of a file;
- `members?` and `settings?`, the members of a file; `environmentValue`, the environment;
- `Config.ofNode` and `Config.load`.
-/

namespace BenchLog

namespace Config

/-- A text. -/
def text? : Value → Option String
  | .text s => some s
  | _ => none

/-- A kind of log: its name, or a table whose least name is the kind and whose value there is nothing. -/
def variant? : Value → Option Variant
  | .text name => Variant.ofName? name
  | .table _ entries =>
    match Value.firstMember? entries with
    | some (name, .null) => Variant.ofName? name
    | _ => none
  | _ => none

/-- The items of a list, each read by `item?`. -/
def list? {α : Type} (item? : Value → Option α) : Value → Option (List α)
  | .list _ items => items.mapM item?
  | _ => none

/-- A log, from a table or from the list of its members in order. -/
def log? : Value → Option LogSpec
  | .table _ entries => do
    let set ← text? (← Value.member? entries "set")
    let path ← text? (← Value.member? entries "path")
    return ⟨set, path⟩
  | .list _ (set :: path :: _) => do return ⟨← text? set, ← text? path⟩
  | _ => none

/-- A job, from a table or from the list of its members in order. -/
def job? : Value → Option Job
  | .table _ entries => do
    let name ← text? (← Value.member? entries "name")
    let variant ← variant? (← Value.member? entries "variant")
    let logs ← list? log? (← Value.member? entries "logs")
    return ⟨name, variant, logs⟩
  | .list _ (name :: variant :: logs :: _) => do
    return ⟨← text? name, ← variant? variant, ← list? log? logs⟩
  | _ => none

/-- The output directory: what the environment says, else what the file says, else the default. -/
def directory? (entries : List (String × Value)) (override? : Option Value) : Option String :=
  match override? with
  | some value => text? value
  | none =>
    match Value.member? entries "output_dir" with
    | some value => text? value
    | none => some defaultDirectory

/-- The jobs that a file names, of which there may be none yet. -/
def jobs? (entries : List (String × Value)) : Option (List Job) :=
  match Value.member? entries "jobs" with
  | some value => list? job? value
  | none => some []

/-- The configuration that the members of a file make, before it is checked. -/
def ofEntries? (entries : List (String × Value)) (override? : Option Value) : Option Config := do
  return { outputDirectory := ← directory? entries override?, jobs := ← jobs? entries }

/-- Whether a path names a JSON file. -/
def isJson (path : String) : Bool := Path.extension? path.toList = some ['j', 's', 'o', 'n']

/-- The members of a settings file that holds `content`. -/
def members? (path : String) (content : List Char) : Option (List (String × Value)) :=
  match if isJson path then Json.read? content else Toml.read? content with
  | some (.table _ entries) => some entries
  | _ => none

/-- The settings that a path leads to. A directory is a file without any. -/
def settings? (path : String) : Node → Option (List (String × Value))
  | .directory => some []
  | .file bytes =>
    (String.fromUTF8? (ByteArray.mk bytes.toArray)).bind fun content => members? path content.toList

/-- What the environment says of the output directory. -/
def environmentValue : Option String → Except ConfigError (Option Value)
  | none => .ok none
  | some content =>
    match Override.ofVariable content with
    | some value => .ok (some value)
    | none => .error .splitCharacter

/-- The configuration at a path where `found` is. `environment?` is the variable of the environment, if it
is set. -/
def ofNode (path : String) (environment? : Option String) (found : Option Node) :
    Except ConfigError Config :=
  match found with
  | none => .error (.notFound path)
  | some node => do
    let override? ← environmentValue environment?
    match (settings? path node).bind fun entries => ofEntries? entries override? with
    | some config => config.check
    | none => throw .unreadable

/-- Loads and checks a configuration from a disk. -/
def load (d : Disk) (path : String) (environment? : Option String) : Except ConfigError Config :=
  ofNode path environment? (d.find? path)

end Config

end BenchLog
