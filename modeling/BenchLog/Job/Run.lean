import BenchLog.Files.Fault
import BenchLog.Job.LogSpec
import BenchLog.Mining.Miner
import BenchLog.Table.Csv
import BenchLog.Text.JsonString
import BenchLog.Text.Lines

/-!
# `BenchLog.Job.Run` — from log files to table files

A job names logs of one kind and the two tables they make. Its logs are mined in order, each into tables
of its own, which are laid over those of the logs before it, and a line of JSON reports each of them. All
logs are read before anything is written. What is written is a short plan: the output directory, the
table of values, the table of missed counts. A plan stops at its first step that fails. A table can fail in
two ways, and the second leaves something behind: it cannot be created, or it is created and its writing
stops.

## Contents
- `Job`, `TablePaths`, `JobError` and its wording;
- `reportLine`, `mineFile`, `Job.mine`, the reading half;
- `Step`, `Job.plan`, `Disk.perform`, the writing half;
- `Job.run`, `runAll`.
-/

namespace BenchLog

/-- Logs of one kind and the name of the tables they make. -/
structure Job where
  name : String
  variant : Variant
  logs : List LogSpec
deriving DecidableEq, Repr

/-- Where the two tables of a job are. -/
structure TablePaths where
  values : String
  missed : String
deriving DecidableEq, Repr

/-- A log that cannot be read. -/
structure UnreadableLog where
  path : String
deriving DecidableEq, Repr

/-- The wording of an `UnreadableLog`. -/
def UnreadableLog.message (e : UnreadableLog) : String := "Failed to read log file: " ++ e.path

/-- Why a job failed. -/
inductive JobError where
  | log (error : UnreadableLog)
  | createDirectory (path : String)
  | createTable (path : String) (stage : WriteStage)
deriving DecidableEq, Repr

/-- The wording of a `JobError`. -/
def JobError.message : JobError → String
  | .log error => "Failed to mine " ++ error.path ++ ": " ++ error.message
  | .createDirectory path => "Failed to create output directory: " ++ path
  | .createTable path .creation => "Failed to create CSV table: " ++ path
  | .createTable path .writing => "Failed to write CSV table: " ++ path

/-! ## Reading -/

/-- One member of a JSON object whose value is a number. -/
def jsonCount (name : String) (n : Nat) : String := "," ++ Text.jsonString name ++ ":" ++ Nat.repr n

/-- The report on one log of a job. -/
def reportLine (job : String) (log : LogSpec) (s : Summary) : String :=
  "\x7b\x22job\x22:" ++ Text.jsonString job
    ++ ",\x22set\x22:" ++ Text.jsonString log.set
    ++ ",\x22path\x22:" ++ Text.jsonString log.path
    ++ jsonCount "sections" s.sections
    ++ jsonCount "recorded" s.recorded
    ++ jsonCount "degenerate" s.degenerate
    ++ jsonCount "skipped" s.skipped
    ++ jsonCount "ambiguous" s.ambiguous
    ++ jsonCount "out_of_range" s.outOfRange
    ++ "\x7d"

/-- Mines one log, whose bytes `read` knows if they can be read. -/
def mineFile (read : String → Option (List UInt8)) (variant : Variant) (log : LogSpec) :
    Except UnreadableLog (Tables × Summary) :=
  match read log.path with
  | none => .error ⟨log.path⟩
  | some bytes => .ok (mineLog variant log.set (Text.Lines.ofBytes bytes))

/-- Mines these logs of a job over the tables of the logs before them. Gives the reports on all logs
before the first that cannot be read, and the tables if there is none. -/
def Job.mineLogs (job : Job) (read : String → Option (List UInt8)) (tables : Tables) :
    List LogSpec → List String × Except JobError Tables
  | [] => ([], .ok tables)
  | log :: logs =>
    match mineFile read job.variant log with
    | .error e => ([], .error (.log e))
    | .ok (mined, summary) =>
      let (reports, result) := job.mineLogs read (tables.absorb mined) logs
      (reportLine job.name log summary :: reports, result)

/-- Mines all logs of a job. -/
def Job.mine (job : Job) (read : String → Option (List UInt8)) :
    List String × Except JobError Tables :=
  job.mineLogs read (.empty job.variant.columns) job.logs

/-! ## Writing -/

/-- Something to be done to a disk. -/
inductive Step where
  | createDirectory (path : String)
  | writeTable (path text : String)
deriving DecidableEq, Repr

/-- Where a job puts its tables. -/
def Job.paths (job : Job) (directory : String) : TablePaths :=
  ⟨Path.join directory (job.name ++ ".perf.csv"), Path.join directory (job.name ++ ".miss.csv")⟩

/-- What is to be done with the tables of a job. -/
def Job.plan (job : Job) (directory : String) (tables : Tables) : List Step :=
  [.createDirectory directory,
    .writeTable (job.paths directory).values (tables.values.toCsv job.variant.corner),
    .writeTable (job.paths directory).missed (tables.missed.toCsv job.variant.corner)]

/-- A disk after a step, and how the step ended. -/
def Disk.take (d : Disk) (f : Faults) : Step → Disk × Except JobError Unit
  | .createDirectory path =>
    let (d', created) := f.createDirs d path
    (d', if created then .ok () else .error (.createDirectory path))
  | .writeTable path text =>
    let (d', written) := f.write d path text.toUTF8.toList
    (d', written.mapError (.createTable path))

/-- A disk after a plan, up to the first step that fails. -/
def Disk.perform (d : Disk) (f : Faults) : List Step → Disk × Except JobError Unit
  | [] => (d, .ok ())
  | step :: plan =>
    match d.take f step with
    | (d', .ok ()) => d'.perform f plan
    | (d', .error e) => (d', .error e)

/-! ## Jobs -/

/-- A job that was run: the disk after it, its reports, and how it ended. -/
structure JobRun where
  disk : Disk
  reports : List String
  result : Except JobError TablePaths

/-- Runs a job. -/
def Job.run (job : Job) (directory : String) (d : Disk) (f : Faults := {}) : JobRun :=
  match job.mine (f.read d) with
  | (reports, .error e) => ⟨d, reports, .error e⟩
  | (reports, .ok tables) =>
    match d.perform f (job.plan directory tables) with
    | (d', .error e) => ⟨d', reports, .error e⟩
    | (d', .ok ()) => ⟨d', reports, .ok (job.paths directory)⟩

/-- Some jobs that were run: the disk after them, all their reports, and how many failed. -/
structure BatchRun where
  disk : Disk
  reports : List String
  failed : Nat

/-- Runs jobs one after the other. A job that fails does not keep the others from running. -/
def runAll (directory : String) (d : Disk) (jobs : List Job) (f : Faults := {}) : BatchRun :=
  match jobs with
  | [] => ⟨d, [], 0⟩
  | job :: jobs =>
    let run := job.run directory d f
    let batch := runAll directory run.disk jobs f
    let failed := match run.result with
      | .ok _ => 0
      | .error _ => 1
    ⟨batch.disk, run.reports ++ batch.reports, failed + batch.failed⟩

/-- The wording for a run of `jobs` jobs of which some failed. -/
def failureMessage (failed jobs : Nat) : String :=
  Nat.repr failed ++ " of " ++ Nat.repr jobs ++ " job(s) failed"

end BenchLog
