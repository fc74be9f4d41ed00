import BenchLog.Job.Run

/-!
# `BenchLog.Config.Basic` — what is to be mined

A configuration names the jobs of a run and the directory of their tables. It has at least one job, and
every job at least one log.

## Contents
- `Config`, `ConfigError` and its wording;
- `Config.defaultDirectory`, `Config.check`.
-/

namespace BenchLog

/-- Jobs and the directory of their tables. -/
structure Config where
  outputDirectory : String
  jobs : List Job
deriving DecidableEq, Repr

/-- Where tables go if nothing says otherwise. -/
def Config.defaultDirectory : String := "."

/-- Why there is no configuration. -/
inductive ConfigError where
  | unreadable
  /-- The variable of the environment is cut inside one of its characters. -/
  | splitCharacter
  | notFound (path : String)
  | noJobs
  | noLogs (job : String)
  | logSpec (spec : String)
deriving DecidableEq, Repr

/-- The wording of a `ConfigError`. -/
def ConfigError.message : ConfigError → String
  | .unreadable => "Failed to load configuration"
  | .splitCharacter => "The output directory of the environment is cut inside a character"
  | .notFound path => "Configuration file not found: " ++ path
  | .noJobs => "Configuration defines no jobs"
  | .noLogs job => "Job '" ++ job ++ "' lists no log files"
  | .logSpec spec => "Invalid log spec " ++ Text.quoted spec ++ ": expected SET=PATH or PATH"

/-- Accepts a configuration that has jobs, all of them with logs. -/
def Config.check (c : Config) : Except ConfigError Config :=
  if c.jobs.isEmpty then .error .noJobs
  else
    match c.jobs.find? (·.logs.isEmpty) with
    | some job => .error (.noLogs job.name)
    | none => .ok c

end BenchLog
