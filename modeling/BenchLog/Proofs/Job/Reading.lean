import BenchLog.Job.Run
import BenchLog.Proofs.Mining.Merge

/-!
# `BenchLog.Proofs.Job.Reading` — what a job makes of its logs

The reading half of a job goes through its logs in order and stops at the first that cannot be read. What
it gives is said here without the loop: the reports on the logs before that one and its error, or, if all
logs can be read, a report on each of them and their merged tables.

## Contents
- `Job.linesOf`, `Job.reportOn`, `Job.tables`: the lines of a log, the report on it, the merged tables;
- `Job.mineLogs_append`, logs that can be read are dealt with before the rest is looked at;
- `Job.mine_of_readable` and `Job.mine_of_unreadable`.
-/

namespace BenchLog

namespace Job

/-- The lines of a log, none if it cannot be read. -/
def linesOf (read : String → Option (List UInt8)) (log : LogSpec) : List String :=
  Text.Lines.ofBytes ((read log.path).getD [])

/-- The report on a log. -/
def reportOn (job : Job) (read : String → Option (List UInt8)) (log : LogSpec) : String :=
  reportLine job.name log (mineLog job.variant log.set (linesOf read log)).2

/-- The merged tables of all logs. -/
def tables (job : Job) (read : String → Option (List UInt8)) : Tables :=
  job.variant.merge (job.logs.map fun log => (log.set, linesOf read log))

variable {read : String → Option (List UInt8)} {log : LogSpec}

theorem mineFile_of_readable (h : (read log.path).isSome) (v : Variant) :
    mineFile read v log = .ok (mineLog v log.set (linesOf read log)) := by
  obtain ⟨bytes, hbytes⟩ := Option.isSome_iff_exists.1 h
  rw [mineFile, linesOf, hbytes, Option.getD_some]

theorem mineFile_of_unreadable (h : read log.path = none) (v : Variant) :
    mineFile read v log = .error ⟨log.path⟩ := by
  rw [mineFile, h]

/-- Logs that can be read are reported and merged before the rest is looked at. -/
theorem mineLogs_append (job : Job) {first : List LogSpec}
    (h : ∀ log ∈ first, (read log.path).isSome) (t : Tables) (rest : List LogSpec) :
    job.mineLogs read t (first ++ rest)
      = let merged := (first.map fun log => (log.set, linesOf read log)).foldl
          (fun t log => t.absorb (mineLog job.variant log.1 log.2).1) t
        (first.map (job.reportOn read) ++ (job.mineLogs read merged rest).1,
          (job.mineLogs read merged rest).2) := by
  induction first generalizing t with
  | nil => rfl
  | cons log first ih =>
      obtain ⟨hlog, hfirst⟩ := List.forall_mem_cons.1 h
      rw [List.cons_append, mineLogs, mineFile_of_readable hlog]
      dsimp only
      rw [ih hfirst]
      rfl

/-- A job whose logs can all be read reports on each of them and merges their tables. -/
theorem mine_of_readable (job : Job) (h : ∀ log ∈ job.logs, (read log.path).isSome) :
    job.mine read = (job.logs.map (job.reportOn read), .ok (job.tables read)) := by
  have happend := mineLogs_append job h (.empty job.variant.columns) []
  rw [List.append_nil] at happend
  rw [mine, happend]
  simp only [mineLogs, List.append_nil]
  rfl

/-- A job stops at the first log that cannot be read. -/
theorem mine_of_unreadable (job : Job) {before after : List LogSpec}
    (hlogs : job.logs = before ++ log :: after) (hbefore : ∀ log ∈ before, (read log.path).isSome)
    (hlog : read log.path = none) :
    job.mine read = (before.map (job.reportOn read), .error (.log ⟨log.path⟩)) := by
  rw [mine, hlogs, mineLogs_append job hbefore]
  simp only [mineLogs, mineFile_of_unreadable hlog, List.append_nil]

end Job

end BenchLog
