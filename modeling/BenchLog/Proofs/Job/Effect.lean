import BenchLog.Proofs.Files.Fault
import BenchLog.Proofs.Files.Suffix
import BenchLog.Proofs.Job.Reading

/-!
# `BenchLog.Proofs.Job.Effect` — what a job leaves behind

A job reads all its logs before it writes anything, and writes in a fixed order: the output directory, the
table of values, the table of missed counts. So there are seven ways for it to end, told apart by what can be
read, created and written to its end on the disk that it finds, and each of them fixes the result, the
reports, and which files are no longer what they were. A log that is one of the two tables makes no
difference, since its content is read first.

A table that cannot be created stays what it was. One whose writing stops does not: it was emptied before,
and holds a beginning of what it should hold. Where no writing stops, the two ways that say so drop out.

Whether the table of missed counts can be created is asked of the disk before the values are written: the
two tables have different names, whatever the job is called.

## Contents
- `Job.apart_values_missed`, the two tables of jobs are never one file;
- `Disk.take_writeTable_of_canCreate` and `..._of_not_canCreate`, one table; `Job.perform_plan_of_no_directory`,
  `..._of_no_values`, `..._of_values_stopped`, `..._of_no_missed`, `..._of_missed`: the writing half;
- `Job.Effect`, the seven ways to end; `Effect.of_run`, `Effect.run_eq`, `Effect.sameBut`;
- `Effect.tables_of_ok` and `Effect.table_of_stopped`, complete tables and stopped ones; `Job.run_effect`.
-/

namespace BenchLog

/-- The bytes of an exported table. -/
def Matrix.csvBytes (m : Matrix) (corner : String) : List UInt8 := (m.toCsv corner).toUTF8.toList

/-! ## The steps of a plan -/

namespace Disk

variable {d d' : Disk} {f : Faults} {step : Step} {plan : List Step} {path : String} {e : JobError}

theorem take_writeTable_of_not_canCreate (h : ¬f.CanCreate d path) (text : String) :
    d.take f (.writeTable path text) = (d, .error (.createTable path .creation)) := by
  simp only [take, Faults.write_of_not_canCreate h, Except.mapError]

/-- What is left of a table that can be created, whether or not its writing stops. -/
theorem take_writeTable_of_canCreate (h : f.CanCreate d path) (text : String) :
    ∃ d', d.take f (.writeTable path text) = (d', (f.writing path).mapError (.createTable path))
      ∧ d.SameBut [] [path] d'
      ∧ d'.read? path = some (f.written path text.toUTF8.toList)
      ∧ ∀ other, f.CanCreate d' other ↔ f.CanCreate d other := by
  obtain ⟨d', hwrite, hframe⟩ := Faults.write_of_canCreate h text.toUTF8.toList
  exact ⟨d', by simp only [take, hwrite], hframe⟩

theorem perform_cons_of_ok (h : d.take f step = (d', .ok ())) :
    d.perform f (step :: plan) = d'.perform f plan := by
  rw [perform, h]

theorem perform_cons_of_error (h : d.take f step = (d', .error e)) :
    d.perform f (step :: plan) = (d', .error e) := by
  rw [perform, h]

/-- The last step of a plan ends as the plan does. -/
theorem perform_singleton (d : Disk) (f : Faults) (step : Step) : d.perform f [step] = d.take f step := by
  rw [perform]
  split
  · next hstep => rw [hstep, perform]
  · next hstep => rw [hstep]

end Disk

namespace Job

variable {job : Job} {directory : String} {d d' : Disk} {f : Faults} {t : Tables} {n : Nat}

/-! ## Where the tables are -/

theorem values_eq_append (job : Job) (directory : String) :
    (job.paths directory).values = Path.join directory job.name ++ ".perf.csv" :=
  Path.join_append (by decide) directory job.name

theorem missed_eq_append (job : Job) (directory : String) :
    (job.paths directory).missed = Path.join directory job.name ++ ".miss.csv" :=
  Path.join_append (by decide) directory job.name

/-- A table of values and a table of missed counts are never one file, not even of different jobs. -/
theorem apart_values_missed (job other : Job) (directory : String) :
    d.Apart (job.paths directory).values (other.paths directory).missed := by
  rw [values_eq_append, missed_eq_append]
  exact Disk.apart_of_suffix_ne (by decide) (by decide) (by decide) (by decide) (by decide)

/-! ## The writing half -/

theorem perform_plan_of_no_directory (h : ¬f.CanCreateDirs d directory) :
    d.perform f (job.plan directory t)
      = ((f.createDirs d directory).1, .error (.createDirectory directory)) := by
  refine Disk.perform_cons_of_error ?_
  simp only [Disk.take, mt (Faults.createDirs_iff f d directory).1 h]
  rfl

theorem perform_plan_of_directory (h : f.CanCreateDirs d directory) :
    d.perform f (job.plan directory t)
      = (d.createDirs directory).1.perform f (job.plan directory t).tail := by
  refine Disk.perform_cons_of_ok ?_
  simp only [Disk.take, Faults.createDirs_of_canCreateDirs h]
  rfl

theorem perform_plan_of_no_values (hdirectory : f.CanCreateDirs d directory)
    (hvalues : ¬f.CanCreate (d.createDirs directory).1 (job.paths directory).values) :
    d.perform f (job.plan directory t)
      = ((d.createDirs directory).1, .error (.createTable (job.paths directory).values .creation)) := by
  rw [perform_plan_of_directory hdirectory]
  exact Disk.perform_cons_of_error (Disk.take_writeTable_of_not_canCreate hvalues _)

theorem perform_plan_of_values_stopped (hdirectory : f.CanCreateDirs d directory)
    (hvalues : f.CanCreate (d.createDirs directory).1 (job.paths directory).values)
    (hstop : f.stop (job.paths directory).values = some n) :
    ∃ d', d.perform f (job.plan directory t)
        = (d', .error (.createTable (job.paths directory).values .writing))
      ∧ d.SameBut (d.along directory) [(job.paths directory).values] d'
      ∧ d'.read? (job.paths directory).values
        = some ((t.values.csvBytes job.variant.corner).take n) := by
  obtain ⟨d', htake, hsame, hread, _⟩ :=
    Disk.take_writeTable_of_canCreate hvalues (t.values.toCsv job.variant.corner)
  rw [Faults.writing_of_some hstop] at htake
  rw [Faults.written_of_some hstop] at hread
  refine ⟨d', ?_, (Disk.sameBut_createDirs d directory).trans_files hsame, hread⟩
  rw [perform_plan_of_directory hdirectory]
  exact Disk.perform_cons_of_error htake

/-- Once the values are written, the table of missed counts decides. -/
theorem perform_plan_of_values (hdirectory : f.CanCreateDirs d directory)
    (hvalues : f.CanCreate (d.createDirs directory).1 (job.paths directory).values)
    (hstop : f.stop (job.paths directory).values = none) :
    ∃ d₁, d.perform f (job.plan directory t)
        = d₁.take f (.writeTable (job.paths directory).missed (t.missed.toCsv job.variant.corner))
      ∧ d.SameBut (d.along directory) [(job.paths directory).values] d₁
      ∧ d₁.read? (job.paths directory).values = some (t.values.csvBytes job.variant.corner)
      ∧ ∀ path, f.CanCreate d₁ path ↔ f.CanCreate (d.createDirs directory).1 path := by
  obtain ⟨d₁, htake, hsame, hread, hcreate⟩ :=
    Disk.take_writeTable_of_canCreate hvalues (t.values.toCsv job.variant.corner)
  rw [Faults.writing_of_none hstop] at htake
  rw [Faults.written_of_none hstop] at hread
  refine ⟨d₁, ?_, (Disk.sameBut_createDirs d directory).trans_files hsame, hread, hcreate⟩
  rw [perform_plan_of_directory hdirectory, ← Disk.perform_singleton]
  exact Disk.perform_cons_of_ok htake

theorem perform_plan_of_no_missed (hdirectory : f.CanCreateDirs d directory)
    (hvalues : f.CanCreate (d.createDirs directory).1 (job.paths directory).values)
    (hstop : f.stop (job.paths directory).values = none)
    (hmissed : ¬f.CanCreate (d.createDirs directory).1 (job.paths directory).missed) :
    ∃ d', d.perform f (job.plan directory t)
        = (d', .error (.createTable (job.paths directory).missed .creation))
      ∧ d.SameBut (d.along directory) [(job.paths directory).values] d'
      ∧ d'.read? (job.paths directory).values = some (t.values.csvBytes job.variant.corner) := by
  obtain ⟨d₁, hperform, hsame, hread, hcreate⟩ :=
    perform_plan_of_values (t := t) hdirectory hvalues hstop
  refine ⟨d₁, ?_, hsame, hread⟩
  rw [hperform]
  exact Disk.take_writeTable_of_not_canCreate (mt (hcreate _).1 hmissed) _

/-- Where both tables can be created, the values are complete, and whether the writing of the missed counts
stops makes the difference. -/
theorem perform_plan_of_missed (hdirectory : f.CanCreateDirs d directory)
    (hvalues : f.CanCreate (d.createDirs directory).1 (job.paths directory).values)
    (hstop : f.stop (job.paths directory).values = none)
    (hmissed : f.CanCreate (d.createDirs directory).1 (job.paths directory).missed) :
    ∃ d', d.perform f (job.plan directory t)
        = (d', (f.writing (job.paths directory).missed).mapError
            (.createTable (job.paths directory).missed))
      ∧ d.SameBut (d.along directory) [(job.paths directory).values, (job.paths directory).missed] d'
      ∧ d'.read? (job.paths directory).values = some (t.values.csvBytes job.variant.corner)
      ∧ d'.read? (job.paths directory).missed
        = some (f.written (job.paths directory).missed (t.missed.csvBytes job.variant.corner)) := by
  obtain ⟨d₁, hperform, hsame, hread, hcreate⟩ :=
    perform_plan_of_values (t := t) hdirectory hvalues hstop
  obtain ⟨d', htake, hsame', hread', _⟩ :=
    Disk.take_writeTable_of_canCreate ((hcreate _).2 hmissed) (t.missed.toCsv job.variant.corner)
  refine ⟨d', hperform.trans htake, hsame.trans_files hsame', ?_, hread'⟩
  -- The second table has another name, so the first is still what was written.
  exact hsame'.read?_eq hread
    (List.forall_mem_singleton.2 (apart_values_missed job job directory))

/-! ## A whole job -/

theorem run_of_mine_error {reports : List String} {e : JobError}
    (h : job.mine (f.read d) = (reports, .error e)) :
    job.run directory d f = ⟨d, reports, .error e⟩ := by
  rw [run, h]

theorem run_of_perform_error {reports : List String} {e : JobError}
    (hmine : job.mine (f.read d) = (reports, .ok t))
    (h : d.perform f (job.plan directory t) = (d', .error e)) :
    job.run directory d f = ⟨d', reports, .error e⟩ := by
  rw [run, hmine]
  dsimp only
  rw [h]

theorem run_of_perform_ok {reports : List String} (hmine : job.mine (f.read d) = (reports, .ok t))
    (h : d.perform f (job.plan directory t) = (d', .ok ())) :
    job.run directory d f = ⟨d', reports, .ok (job.paths directory)⟩ := by
  rw [run, hmine]
  dsimp only
  rw [h]

/-- How a job can end on a disk, with what fails there. The conditions of the seven ways exclude each other,
    and each way says what the result is, what was reported, and where the disk is not what it was. New
    directories are along the path of the output directory, if there are any. -/
inductive Effect (job : Job) (directory : String) (d : Disk) (f : Faults) : JobRun → Prop where
  /-- The first log that cannot be read is the error. The logs before it are reported, and the disk stays. -/
  | unreadableLog {before after : List LogSpec} {log : LogSpec}
      (logs_eq : job.logs = before ++ log :: after)
      (readable : ∀ log ∈ before, (f.read d log.path).isSome)
      (unreadable : f.read d log.path = none) :
      Effect job directory d f ⟨d, before.map (job.reportOn (f.read d)), .error (.log ⟨log.path⟩)⟩
  /-- The output directory cannot be created. No file changes. -/
  | noDirectory {d' : Disk}
      (readable : ∀ log ∈ job.logs, (f.read d log.path).isSome)
      (noDirectory : ¬f.CanCreateDirs d directory)
      (sameBut : d.SameBut (d.along directory) [] d') :
      Effect job directory d f
        ⟨d', job.logs.map (job.reportOn (f.read d)), .error (.createDirectory directory)⟩
  /-- The table of values cannot be created. No file changes. -/
  | noValues {d' : Disk}
      (readable : ∀ log ∈ job.logs, (f.read d log.path).isSome)
      (directory_created : f.CanCreateDirs d directory)
      (noValues : ¬f.CanCreate (d.createDirs directory).1 (job.paths directory).values)
      (sameBut : d.SameBut (d.along directory) [] d') :
      Effect job directory d f
        ⟨d', job.logs.map (job.reportOn (f.read d)),
          .error (.createTable (job.paths directory).values .creation)⟩
  /-- The writing of the table of values stops. Its first bytes are there, and no other file changes. -/
  | valuesStopped {d' : Disk} {n : Nat}
      (readable : ∀ log ∈ job.logs, (f.read d log.path).isSome)
      (directory_created : f.CanCreateDirs d directory)
      (values_created : f.CanCreate (d.createDirs directory).1 (job.paths directory).values)
      (valuesStopped : f.stop (job.paths directory).values = some n)
      (sameBut : d.SameBut (d.along directory) [(job.paths directory).values] d')
      (values_read : d'.read? (job.paths directory).values
        = some (((job.tables (f.read d)).values.csvBytes job.variant.corner).take n)) :
      Effect job directory d f
        ⟨d', job.logs.map (job.reportOn (f.read d)),
          .error (.createTable (job.paths directory).values .writing)⟩
  /-- Only the table of missed counts cannot be created. That of the values is there, and complete. -/
  | noMissed {d' : Disk}
      (readable : ∀ log ∈ job.logs, (f.read d log.path).isSome)
      (directory_created : f.CanCreateDirs d directory)
      (values_created : f.CanCreate (d.createDirs directory).1 (job.paths directory).values)
      (values_written : f.stop (job.paths directory).values = none)
      (noMissed : ¬f.CanCreate (d.createDirs directory).1 (job.paths directory).missed)
      (sameBut : d.SameBut (d.along directory) [(job.paths directory).values] d')
      (values_read : d'.read? (job.paths directory).values
        = some ((job.tables (f.read d)).values.csvBytes job.variant.corner)) :
      Effect job directory d f
        ⟨d', job.logs.map (job.reportOn (f.read d)),
          .error (.createTable (job.paths directory).missed .creation)⟩
  /-- Only the writing of the table of missed counts stops. Its first bytes are there, and that of the values
      is complete. -/
  | missedStopped {d' : Disk} {n : Nat}
      (readable : ∀ log ∈ job.logs, (f.read d log.path).isSome)
      (directory_created : f.CanCreateDirs d directory)
      (values_created : f.CanCreate (d.createDirs directory).1 (job.paths directory).values)
      (values_written : f.stop (job.paths directory).values = none)
      (missed_created : f.CanCreate (d.createDirs directory).1 (job.paths directory).missed)
      (missedStopped : f.stop (job.paths directory).missed = some n)
      (sameBut : d.SameBut (d.along directory) [(job.paths directory).values, (job.paths directory).missed] d')
      (values_read : d'.read? (job.paths directory).values
        = some ((job.tables (f.read d)).values.csvBytes job.variant.corner))
      (missed_read : d'.read? (job.paths directory).missed
        = some (((job.tables (f.read d)).missed.csvBytes job.variant.corner).take n)) :
      Effect job directory d f
        ⟨d', job.logs.map (job.reportOn (f.read d)),
          .error (.createTable (job.paths directory).missed .writing)⟩
  /-- Both tables are there, made of the logs as they were before the job. -/
  | done {d' : Disk}
      (readable : ∀ log ∈ job.logs, (f.read d log.path).isSome)
      (directory_created : f.CanCreateDirs d directory)
      (values_created : f.CanCreate (d.createDirs directory).1 (job.paths directory).values)
      (values_written : f.stop (job.paths directory).values = none)
      (missed_created : f.CanCreate (d.createDirs directory).1 (job.paths directory).missed)
      (missed_written : f.stop (job.paths directory).missed = none)
      (sameBut : d.SameBut (d.along directory) [(job.paths directory).values, (job.paths directory).missed] d')
      (values_read : d'.read? (job.paths directory).values
        = some ((job.tables (f.read d)).values.csvBytes job.variant.corner))
      (missed_read : d'.read? (job.paths directory).missed
        = some ((job.tables (f.read d)).missed.csvBytes job.variant.corner)) :
      Effect job directory d f
        ⟨d', job.logs.map (job.reportOn (f.read d)), .ok (job.paths directory)⟩

/-- Either all logs of a job can be read, or there is a first one that cannot. -/
theorem readable_or_first_unreadable (job : Job) (read : String → Option (List UInt8)) :
    (∀ log ∈ job.logs, (read log.path).isSome)
      ∨ ∃ before log after, job.logs = before ++ log :: after
        ∧ (∀ log ∈ before, (read log.path).isSome) ∧ read log.path = none := by
  cases hfind : job.logs.find? (fun log => (read log.path).isNone) with
  | none =>
      refine Or.inl fun log hlog => ?_
      simpa [Option.isSome_iff_ne_none] using List.find?_eq_none.1 hfind log hlog
  | some log =>
      obtain ⟨hlog, before, after, hlogs, hbefore⟩ := List.find?_eq_some_iff_append.1 hfind
      refine Or.inr ⟨before, log, after, hlogs, fun l hl => ?_, by simpa using hlog⟩
      simpa [Option.isSome_iff_ne_none] using hbefore l hl

/-- A job that has written all values ends in one of the three ways that are left. -/
theorem Effect.of_values (hreadable : ∀ log ∈ job.logs, (f.read d log.path).isSome)
    (hdirectory : f.CanCreateDirs d directory)
    (hvalues : f.CanCreate (d.createDirs directory).1 (job.paths directory).values)
    (hstop : f.stop (job.paths directory).values = none) :
    job.Effect directory d f (job.run directory d f) := by
  have hmine := job.mine_of_readable hreadable
  by_cases hmissed : f.CanCreate (d.createDirs directory).1 (job.paths directory).missed
  · obtain ⟨d', hperform, hsame, hread, hread'⟩ :=
      perform_plan_of_missed (t := job.tables (f.read d)) hdirectory hvalues hstop hmissed
    cases hstop' : f.stop (job.paths directory).missed with
    | some n =>
        rw [Faults.writing_of_some hstop'] at hperform
        rw [Faults.written_of_some hstop'] at hread'
        rw [run_of_perform_error hmine hperform]
        exact .missedStopped hreadable hdirectory hvalues hstop hmissed hstop' hsame hread hread'
    | none =>
        rw [Faults.writing_of_none hstop'] at hperform
        rw [Faults.written_of_none hstop'] at hread'
        rw [run_of_perform_ok hmine hperform]
        exact .done hreadable hdirectory hvalues hstop hmissed hstop' hsame hread hread'
  · obtain ⟨d', hperform, hsame, hread⟩ :=
      perform_plan_of_no_missed (t := job.tables (f.read d)) hdirectory hvalues hstop hmissed
    rw [run_of_perform_error hmine hperform]
    exact .noMissed hreadable hdirectory hvalues hstop hmissed hsame hread

/-- A job that gets as far as its first table ends in one of the five ways that are left. -/
theorem Effect.of_directory (hreadable : ∀ log ∈ job.logs, (f.read d log.path).isSome)
    (hdirectory : f.CanCreateDirs d directory) :
    job.Effect directory d f (job.run directory d f) := by
  have hmine := job.mine_of_readable hreadable
  by_cases hvalues : f.CanCreate (d.createDirs directory).1 (job.paths directory).values
  · cases hstop : f.stop (job.paths directory).values with
    | some n =>
        obtain ⟨d', hperform, hsame, hread⟩ :=
          perform_plan_of_values_stopped (t := job.tables (f.read d)) hdirectory hvalues hstop
        rw [run_of_perform_error hmine hperform]
        exact .valuesStopped hreadable hdirectory hvalues hstop hsame hread
    | none => exact .of_values hreadable hdirectory hvalues hstop
  · rw [run_of_perform_error hmine (perform_plan_of_no_values hdirectory hvalues)]
    exact .noValues hreadable hdirectory hvalues (Disk.sameBut_createDirs d directory)

/-- Every job ends in one of the seven ways. -/
theorem Effect.of_run (job : Job) (directory : String) (d : Disk) (f : Faults) :
    job.Effect directory d f (job.run directory d f) := by
  rcases job.readable_or_first_unreadable (f.read d) with hreadable | hfirst
  · by_cases hdirectory : f.CanCreateDirs d directory
    · exact .of_directory hreadable hdirectory
    · rw [run_of_perform_error (job.mine_of_readable hreadable) (perform_plan_of_no_directory hdirectory)]
      exact .noDirectory hreadable hdirectory (Faults.sameBut_createDirs f d directory)
  · obtain ⟨before, log, after, hlogs, hbefore, hlog⟩ := hfirst
    rw [run_of_mine_error (job.mine_of_unreadable hlogs hbefore hlog)]
    exact .unreadableLog hlogs hbefore hlog

/-- The conditions of a way to end bring about its reports and its result. -/
theorem Effect.run_eq {r : JobRun} (h : job.Effect directory d f r) :
    (job.run directory d f).reports = r.reports ∧ (job.run directory d f).result = r.result := by
  cases h with
  | unreadableLog logs_eq readable unreadable =>
      rw [run_of_mine_error (job.mine_of_unreadable logs_eq readable unreadable)]
      exact ⟨rfl, rfl⟩
  | noDirectory readable noDirectory _ =>
      rw [run_of_perform_error (job.mine_of_readable readable)
        (perform_plan_of_no_directory noDirectory)]
      exact ⟨rfl, rfl⟩
  | noValues readable created noValues _ =>
      rw [run_of_perform_error (job.mine_of_readable readable)
        (perform_plan_of_no_values created noValues)]
      exact ⟨rfl, rfl⟩
  | valuesStopped readable created values_created stopped _ _ =>
      obtain ⟨_, hperform, _⟩ :=
        perform_plan_of_values_stopped (t := job.tables (f.read d)) created values_created stopped
      rw [run_of_perform_error (job.mine_of_readable readable) hperform]
      exact ⟨rfl, rfl⟩
  | noMissed readable created values_created values_written noMissed _ _ =>
      obtain ⟨_, hperform, _⟩ :=
        perform_plan_of_no_missed (t := job.tables (f.read d)) created values_created values_written noMissed
      rw [run_of_perform_error (job.mine_of_readable readable) hperform]
      exact ⟨rfl, rfl⟩
  | missedStopped readable created values_created values_written missed_created stopped _ _ _ =>
      obtain ⟨_, hperform, _⟩ :=
        perform_plan_of_missed (t := job.tables (f.read d)) created values_created values_written
          missed_created
      rw [Faults.writing_of_some stopped] at hperform
      rw [run_of_perform_error (job.mine_of_readable readable) hperform]
      exact ⟨rfl, rfl⟩
  | done readable created values_created values_written missed_created missed_written _ _ _ =>
      obtain ⟨_, hperform, _⟩ :=
        perform_plan_of_missed (t := job.tables (f.read d)) created values_created values_written
          missed_created
      rw [Faults.writing_of_none missed_written] at hperform
      rw [run_of_perform_ok (job.mine_of_readable readable) hperform]
      exact ⟨rfl, rfl⟩

/-- Whichever way a job ends, no file but its two tables has changed, and no directory is new but along the
path of the output directory. -/
theorem Effect.sameBut {r : JobRun} (h : job.Effect directory d f r) :
    d.SameBut (d.along directory) [(job.paths directory).values, (job.paths directory).missed] r.disk := by
  cases h with
  | unreadableLog _ _ _ => exact .refl d
  | noDirectory _ _ sameBut => exact sameBut.mono_files (List.nil_subset _)
  | noValues _ _ _ sameBut => exact sameBut.mono_files (List.nil_subset _)
  | valuesStopped _ _ _ _ sameBut _ => exact sameBut.mono_files (List.subset_append_left _ _)
  | noMissed _ _ _ _ _ sameBut _ => exact sameBut.mono_files (List.subset_append_left _ _)
  | missedStopped _ _ _ _ _ _ sameBut _ _ => exact sameBut
  | done _ _ _ _ _ _ sameBut _ _ => exact sameBut

/-- A job that succeeds leaves its tables, made of the logs as it found them. -/
theorem Effect.tables_of_ok {r : JobRun} {paths : TablePaths} (h : job.Effect directory d f r)
    (hok : r.result = .ok paths) :
    r.disk.read? (job.paths directory).values
        = some ((job.tables (f.read d)).values.csvBytes job.variant.corner)
      ∧ r.disk.read? (job.paths directory).missed
        = some ((job.tables (f.read d)).missed.csvBytes job.variant.corner) := by
  cases h with
  | done _ _ _ _ _ _ _ values_read missed_read => exact ⟨values_read, missed_read⟩
  | _ => exact nomatch hok

end Job

end BenchLog
