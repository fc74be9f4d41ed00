import BenchLog.CommandLine
import BenchLog.Config.Load

/-!
# `BenchLog.Main` — the program

Reads arguments, environment and files, has the rest of the library decide, and carries out what it
decides: reports go to the standard output, complaints to the standard error. A program that was called
wrongly ends with 2, one that failed with 1.

## Contents
- `outputVariable` and `settingsVariable`, the two variables of the environment;
- `found?` and `contents`, reading; `attempt`, `take` and `perform`, writing;
- `runJob`, `runJobs`, `runCommand`, and `main`.
-/

namespace BenchLog.Program

/-- Names the output directory of the command that mines logs. -/
def outputVariable : String := "BMINE_OUT_DIR"

/-- Names the output directory of the command that runs the jobs of a file. -/
def settingsVariable : String := "BMINE_OUTPUT_DIR"

/-! ## Files -/

/-- What a path leads to. A file that is there and cannot be read counts as a directory. -/
def found? (path : String) : IO (Option Node) := do
  match ← (IO.FS.readBinFile path).toBaseIO with
  | .ok bytes => return some (.file bytes.toList)
  | .error (.noFileOrDirectory ..) => return none
  | .error _ => return some .directory

/-- The bytes of the files that can be read among these. -/
def contents (paths : List String) : IO (List (String × List UInt8)) := do
  let mut files := []
  for path in paths do
    if let some (.file bytes) ← found? path then files := (path, bytes) :: files
  return files

/-- Does something that has an error of its own. -/
def attempt {α : Type} (action : IO α) (error : JobError) : ExceptT JobError IO α := do
  match ← action.toBaseIO with
  | .ok result => return result
  | .error _ => throw error

/-- Does one step. -/
def take : Step → ExceptT JobError IO Unit
  | .createDirectory path =>
    if path = "" then pure () else attempt (IO.FS.createDirAll path) (.createDirectory path)
  | .writeTable path text => do
    let table ← attempt (IO.FS.Handle.mk path .write) (.createTable path .creation)
    attempt (do table.putStr text; table.flush) (.createTable path .writing)

/-- Does the steps of a plan, up to the first that fails. -/
def perform (plan : List Step) : IO (Except JobError Unit) := (plan.forM take).run

/-! ## Commands -/

/-- Runs a job and says whether it succeeded. -/
def runJob (directory : String) (job : Job) : IO Bool := do
  let files ← contents (job.logs.map LogSpec.path)
  let (reports, mined) := job.mine fun path => files.lookup path
  for report in reports do
    IO.println report
  let result ← match mined with
    | .ok tables => perform (job.plan directory tables)
    | .error e => pure (.error e)
  match result with
  | .ok () => return true
  | .error e =>
    IO.eprintln ("Job failed: " ++ job.name ++ ": " ++ e.message)
    return false

/-- Runs all jobs of a configuration. -/
def runJobs (config : Config) : IO UInt32 := do
  let mut failed := 0
  for job in config.jobs do
    unless ← runJob config.outputDirectory job do failed := failed + 1
  if failed = 0 then return 0
  IO.eprintln (failureMessage failed config.jobs.length)
  return 1

/-- The configuration that a command runs. -/
def configuration : Command → IO (Except ConfigError Config)
  | .mine options => return options.config
  | .sweep path => return Config.ofNode path (← IO.getEnv settingsVariable) (← found? path)

/-- Carries out a command. -/
def runCommand (command : Command) : IO UInt32 := do
  match ← configuration command with
  | .ok config => runJobs config
  | .error e =>
    IO.eprintln e.message
    return 1

/-- Reports why the arguments are not carried out. -/
def report (e : UsageError) : IO UInt32 := do
  if e = .help || e = .version then
    IO.println e.message
    return 0
  else
    IO.eprintln e.message
    return 2

end BenchLog.Program

/-- Runs the program with its arguments. -/
def main (arguments : List String) : IO UInt32 := do
  match BenchLog.Command.ofArguments (← IO.getEnv BenchLog.Program.outputVariable) arguments with
  | .ok command => BenchLog.Program.runCommand command
  | .error e => BenchLog.Program.report e
