import BenchLog.Config.Basic
import BenchLog.Proofs.Job.Effect

/-!
# `BenchLog.Proofs.Job.Batch` — what becomes of tables in a run of many jobs

Jobs run one after the other on one disk. A job changes no file but its two tables, so the tables of an
earlier job are still there at the end unless a later job writes to the very same place. Nothing keeps it
from doing so: a configuration is accepted whatever its jobs are called, and two jobs of one name leave one
pair of tables, without any job having failed. Jobs with different names do not meet, as long as the names
do not lead out of the directory.

## Contents
- `disk_runAll_append`, `failed_runAll_append`, a run in two parts; `sameBut_runAll`, what it leaves alone;
- `Job.apart_of_name_ne`, jobs with different plain names have different tables;
- `runAll_tables_stand`, tables at the end of a run, and `runAll_replaces_tables`, two jobs of one name.
-/

namespace BenchLog

variable {directory : String} {d : Disk} {f : Faults} {job : Job} {before after : List Job}

/-! ## Runs in parts -/

theorem disk_runAll_append (directory : String) (d : Disk) (before after : List Job) (f : Faults) :
    (runAll directory d (before ++ after) f).disk
      = (runAll directory (runAll directory d before f).disk after f).disk := by
  induction before generalizing d with
  | nil => rfl
  | cons job before ih => exact ih (job.run directory d f).disk

theorem failed_runAll_append (directory : String) (d : Disk) (before after : List Job) (f : Faults) :
    (runAll directory d (before ++ after) f).failed
      = (runAll directory d before f).failed
        + (runAll directory (runAll directory d before f).disk after f).failed := by
  induction before generalizing d with
  | nil => exact (Nat.zero_add _).symm
  | cons job before ih =>
      have hrest := ih (job.run directory d f).disk
      simp only [List.cons_append, runAll] at hrest ⊢
      rw [hrest, Nat.add_assoc]

/-- The files that some jobs write. -/
def tableFiles (directory : String) (jobs : List Job) : List String :=
  jobs.flatMap fun job => [(job.paths directory).values, (job.paths directory).missed]

/-- A run of jobs changes no file but their tables and makes no directory but along the path of the output
directory, whether or not they succeed. -/
theorem sameBut_runAll (directory : String) (d : Disk) (jobs : List Job) (f : Faults) :
    d.SameBut (d.along directory) (tableFiles directory jobs) (runAll directory d jobs f).disk := by
  induction jobs generalizing d with
  | nil => exact .refl d
  | cons job jobs ih =>
      -- The rest runs on the disk that the first job leaves, however that job ended.
      have hjob := (Job.Effect.of_run job directory d f).sameBut
      have hjobs := ih (job.run directory d f).disk
      rw [Disk.along_congr hjob.home_eq] at hjobs
      exact (hjob.trans hjobs).mono (List.append_subset.2 ⟨List.Subset.refl _, List.Subset.refl _⟩)
        (List.Subset.refl _)

/-! ## One job of a run -/

namespace Job

theorem run_ok_of_failed_eq_zero (h : (runAll directory d (job :: after) f).failed = 0) :
    ∃ paths, (job.run directory d f).result = .ok paths := by
  rw [runAll] at h
  dsimp only at h
  cases hresult : (job.run directory d f).result with
  | ok paths => exact ⟨paths, rfl⟩
  | error e =>
      rw [hresult] at h
      dsimp only at h
      omega

theorem apart_of_mem_tableFiles {path : String} {jobs : List Job}
    (hvalues : ∀ other ∈ jobs, d.Apart path (other.paths directory).values)
    (hmissed : ∀ other ∈ jobs, d.Apart path (other.paths directory).missed) :
    ∀ file ∈ tableFiles directory jobs, d.Apart path file := by
  intro file hfile
  obtain ⟨other, hother, hmem⟩ := List.mem_flatMap.1 hfile
  rcases List.mem_pair.1 hmem with rfl | rfl
  · exact hvalues other hother
  · exact hmissed other hother

/-- A name that does not lead out of the directory. -/
def IsPlain (job : Job) : Prop := '/' ∉ job.name.toList

instance : DecidablePred IsPlain := fun job => inferInstanceAs (Decidable ('/' ∉ job.name.toList))

/-- Jobs with different plain names have different tables. -/
theorem apart_of_name_ne {other : Job} (h : job.IsPlain) (h' : other.IsPlain)
    (hne : job.name ≠ other.name) :
    d.Apart (job.paths directory).values (other.paths directory).values
      ∧ d.Apart (job.paths directory).missed (other.paths directory).missed := by
  have hfile : ∀ suffix : String, '/' ∉ suffix.toList → 2 < suffix.toList.length →
      d.Apart (Path.join directory (job.name ++ suffix)) (Path.join directory (other.name ++ suffix)) := by
    intro suffix hslash hlong
    have hname : ∀ j : Job, j.IsPlain → '/' ∉ (j.name ++ suffix).toList := by
      intro j hj
      rw [String.toList_append, List.mem_append, not_or]
      exact ⟨hj, hslash⟩
    have hlength : ∀ j : Job, 2 < (j.name ++ suffix).toList.length := by
      intro j
      rw [String.toList_append, List.length_append]
      omega
    -- Both are the path of the directory with a name behind it.
    have hjoin := fun j hj => Path.join_append (hname j hj) directory ""
    simp only [String.empty_append] at hjoin
    rw [hjoin job h, hjoin other h']
    refine Disk.apart_of_append_ne (hname job h) (hname other h') (hlength job) (hlength other) ?_
    intro htext
    exact hne ((String.append_left_inj suffix).1 htext)
  exact ⟨hfile _ (by decide) (by decide), hfile _ (by decide) (by decide)⟩

end Job

/-! ## At the end of a run -/

/-- **The tables of a job stand until a job writes to the same place.** If a run succeeds, the two files of
    each of its jobs hold at the end what that job merged from its logs, as they were when its turn came,
    unless the tables of a later job are at the very same place. So they do if its name and those of the
    later jobs are plain and different from its own. -/
theorem runAll_tables_stand (h : (runAll directory d (before ++ job :: after) f).failed = 0) :
    let found := f.read (runAll directory d before f).disk
    let left := (runAll directory d (before ++ job :: after) f).disk
    let values := some ((job.tables found).values.csvBytes job.variant.corner)
    let missed := some ((job.tables found).missed.csvBytes job.variant.corner)
    ((∀ later ∈ after, left.Apart (job.paths directory).values (later.paths directory).values) →
        left.read? (job.paths directory).values = values)
      ∧ ((∀ later ∈ after, left.Apart (job.paths directory).missed (later.paths directory).missed) →
        left.read? (job.paths directory).missed = missed)
      ∧ (job.IsPlain → (∀ later ∈ after, later.IsPlain ∧ job.name ≠ later.name) →
        left.read? (job.paths directory).values = values
          ∧ left.read? (job.paths directory).missed = missed) := by
  intro found left values missed
  rw [failed_runAll_append] at h
  have hfailed := (Nat.add_eq_zero_iff.1 h).2
  obtain ⟨paths, hok⟩ := Job.run_ok_of_failed_eq_zero hfailed
  obtain ⟨hvalues, hmissed⟩ := (Job.Effect.of_run job directory _ f).tables_of_ok hok
  have hleft : left
      = (runAll directory (job.run directory (runAll directory d before f).disk f).disk after f).disk :=
    disk_runAll_append directory d before (job :: after) f
  have hsame :=
    sameBut_runAll directory (job.run directory (runAll directory d before f).disk f).disk after f
  rw [← hleft] at hsame
  -- Of the files that later jobs write, only those with the same ending can be at the same place.
  have hvalues_stand
      (hapart : ∀ later ∈ after,
        left.Apart (job.paths directory).values (later.paths directory).values) :
      left.read? (job.paths directory).values = values :=
    hsame.read?_eq hvalues (Job.apart_of_mem_tableFiles hapart
      fun later _ => Job.apart_values_missed job later directory)
  have hmissed_stand
      (hapart : ∀ later ∈ after,
        left.Apart (job.paths directory).missed (later.paths directory).missed) :
      left.read? (job.paths directory).missed = missed :=
    hsame.read?_eq hmissed (Job.apart_of_mem_tableFiles
      (fun later _ => (Job.apart_values_missed later job directory).symm) hapart)
  refine ⟨hvalues_stand, hmissed_stand, ?_⟩
  intro hplain hlater
  exact ⟨hvalues_stand fun later hmem =>
      (Job.apart_of_name_ne hplain (hlater later hmem).1 (hlater later hmem).2).1,
    hmissed_stand fun later hmem =>
      (Job.apart_of_name_ne hplain (hlater later hmem).1 (hlater later hmem).2).2⟩

/-- A job on a log without lines, all such jobs having one name. -/
def twin (set : String) : Job := ⟨"t", .syscall, [⟨set, "a.log"⟩]⟩

/-- Two jobs of one name are accepted. -/
def twinConfig : Config := ⟨"out", [twin "fl", twin "sa"]⟩

/-- A disk with that log. -/
def twinDisk : Disk := ({} : Disk).place "a.log" []

/-- A job of another name on the same log. -/
def loner : Job := ⟨"u", .counter, [⟨"fl", "a.log"⟩]⟩

/-- A run of two jobs of one name and one of another. -/
def crowdedRun : BatchRun := runAll "out" twinDisk ([twin "fl"] ++ twin "sa" :: [loner])

/-- The last job of a name keeps its tables, also before a job of another name. -/
theorem runAll_tables_stand_last :
    crowdedRun.failed = 0
      ∧ crowdedRun.disk.read? ((twin "sa").paths "out").values
        = some (((twin "sa").tables (runAll "out" twinDisk [twin "fl"]).disk.read?).values.csvBytes
            (twin "sa").variant.corner)
      ∧ crowdedRun.disk.read? ((twin "sa").paths "out").missed
        = some (((twin "sa").tables (runAll "out" twinDisk [twin "fl"]).disk.read?).missed.csvBytes
            (twin "sa").variant.corner) := by
  have hfailed : crowdedRun.failed = 0 := by decide +kernel
  obtain ⟨_, _, hstand⟩ := runAll_tables_stand hfailed
  exact ⟨hfailed, hstand (by decide) (by decide)⟩

/-- **Two jobs of one name leave one pair of tables.** The configuration is accepted and no job fails, but
    the tables of the first job are gone. -/
theorem runAll_replaces_tables :
    twinConfig.check = .ok twinConfig
      ∧ (runAll twinConfig.outputDirectory twinDisk twinConfig.jobs).failed = 0
      ∧ (runAll twinConfig.outputDirectory twinDisk twinConfig.jobs).disk.read?
            ((twin "fl").paths twinConfig.outputDirectory).values
          ≠ some (((twin "fl").tables twinDisk.read?).values.csvBytes (twin "fl").variant.corner) :=
  ⟨rfl, by decide +kernel, by decide +kernel⟩

end BenchLog
