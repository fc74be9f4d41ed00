import BenchLog.Proofs.Mining.Declare

/-!
# `BenchLog.Proofs.Mining.Merge` — merged tables are those of one run

A job mines every log into tables of its own and lays these over one another in order. The outcome is that
of working on one pair of tables throughout: before each log the rows of its set are declared, and then
its sections are entered. Logs can therefore be mined independently of each other.

Laying over keeps a known row as visible as it is, while `hide` hides it whatever it was. The two agree
because the row that is hidden for a set is never a visible row of the logs before (`Variant.Tidy`).

## Contents
- `Variant.mineOver`, a log entered into tables; `Variant.merge`, `Variant.replay`;
- `Variant.Tidy`, the invariant of a merge, and `Variant.absorb_mineLog`, its step;
- `Variant.Declared`, tables in which replaying a log of a set is running a miner on it;
- `Variant.merge_eq_replay`.
-/

namespace BenchLog

/-! ## Merging and replaying -/

namespace Variant

variable {v : Variant} {t other : Tables}

/-- What a merge keeps up: the tables are well-formed, and in those of the syscall log no row for all
    others is visible. -/
structure Tidy (v : Variant) (t : Tables) : Prop where
  wellFormed : t.WellFormed v.columns
  others_hidden : v = .syscall → t.values.OthersHidden ∧ t.missed.OthersHidden

theorem Tidy.empty (v : Variant) : v.Tidy (.empty v.columns) :=
  ⟨.empty _, fun _ => ⟨.empty _, .empty _⟩⟩

theorem absorb_declare (ht : v.Tidy t) (hother : other.WellFormed v.columns) (set : String) :
    t.absorb (v.declare set other) = v.declare set (t.absorb other) := by
  cases v with
  | counter => rfl
  | syscall =>
      obtain ⟨hvalues, hmissed⟩ := ht.others_hidden rfl
      simp only [declare, Tables.absorb,
        Matrix.absorb_declare ht.wellFormed.values hother.values hvalues,
        Matrix.absorb_declare ht.wellFormed.missed hother.missed hmissed]

/-- Enters a log into tables: declares the rows of its set, then enters the outcomes of its sections. -/
def mineOver (v : Variant) (t : Tables) (log : String × List String) : Tables :=
  (v.results log.1 log.2).foldl Tables.enter (v.declare log.1 t)

theorem mineOver_eq_foldl_put (v : Variant) (t : Tables) (log : String × List String) :
    v.mineOver t log = (v.entries log.1 log.2).foldl Tables.put (v.declare log.1 t) :=
  Tables.foldl_enter _ _

/-- The tables of a single log are those of the log entered into empty tables. -/
theorem tables_mineLog (v : Variant) (set : String) (lines : List String) :
    (mineLog v set lines).1 = v.mineOver (.empty v.columns) (set, lines) := by
  rw [mineOver, ← freshTables_eq_declare]
  rfl

/-- Laying the tables of a log over others is entering the log into those. -/
theorem absorb_mineLog (h : v.Tidy t) (set : String) (lines : List String) :
    t.absorb (mineLog v set lines).1 = v.mineOver t (set, lines) := by
  have hdeclare := wellFormed_declare (Tables.WellFormed.empty v.columns) set
  rw [tables_mineLog, mineOver_eq_foldl_put, mineOver_eq_foldl_put,
    Tables.absorb_foldl_put h.wellFormed hdeclare, absorb_declare h (.empty _), Tables.absorb_empty]

theorem Tidy.mineOver (h : v.Tidy t) (log : String × List String) : v.Tidy (v.mineOver t log) := by
  rw [mineOver_eq_foldl_put]
  refine ⟨(wellFormed_declare h.wellFormed log.1).foldl_put _, ?_⟩
  rintro rfl
  -- The rows of the set are declared by the time the first entry comes, so its hidden row is there.
  obtain ⟨hvalues, hmissed⟩ := h.others_hidden rfl
  have hrow : ∀ e ∈ syscall.entries log.1 log.2, ∃ instances, e.row = Syscall.rowOf log.1 instances :=
    fun e he => row_of_mem_entries_syscall he
  rw [Tables.values_foldl_put, Tables.missed_foldl_put]
  exact ⟨(hvalues.declare log.1).foldl_write (Matrix.declares_declare log.1 _) hrow,
    (hmissed.declare log.1).foldl_write (Matrix.declares_declare log.1 _) hrow⟩

/-- The tables of some logs, each mined on its own, laid over one another in order. -/
def merge (v : Variant) (logs : List (String × List String)) : Tables :=
  logs.foldl (fun t log => t.absorb (mineLog v log.1 log.2).1) (.empty v.columns)

/-- One pair of tables into which some logs are entered in order. -/
def replay (v : Variant) (logs : List (String × List String)) : Tables :=
  logs.foldl v.mineOver (.empty v.columns)

/-- Merging goes through the same tables as replaying, from any tidy ones on. -/
theorem foldl_absorb_eq_foldl_mineOver (h : v.Tidy t) (logs : List (String × List String)) :
    logs.foldl (fun t log => t.absorb (mineLog v log.1 log.2).1) t = logs.foldl v.mineOver t := by
  induction logs generalizing t with
  | nil => rfl
  | cons log logs ih => rw [List.foldl_cons, List.foldl_cons, absorb_mineLog h, ih (h.mineOver log)]

/-! ## Logs of one set -/

/-- Tables in which the rows of a set are declared already. -/
structure Declared (v : Variant) (set : String) (t : Tables) : Prop where
  wellFormed : t.WellFormed v.columns
  declares : v = .syscall → t.values.Declares set ∧ t.missed.Declares set

theorem Declared.declare_eq {set : String} (h : v.Declared set t) : v.declare set t = t := by
  cases v with
  | counter => rfl
  | syscall =>
      obtain ⟨hvalues, hmissed⟩ := h.declares rfl
      rw [declare, hvalues.declare_eq h.wellFormed.values, hmissed.declare_eq h.wellFormed.missed]

theorem declared_mineOver (h : t.WellFormed v.columns) (log : String × List String) :
    v.Declared log.1 (v.mineOver t log) := by
  rw [mineOver_eq_foldl_put]
  refine ⟨(wellFormed_declare h log.1).foldl_put _, ?_⟩
  rintro rfl
  rw [Tables.values_foldl_put, Tables.missed_foldl_put]
  exact ⟨(Matrix.declares_declare log.1 _).foldl_write, (Matrix.declares_declare log.1 _).foldl_write⟩

/-- A miner whose tables have been declared enters a log as replaying does. -/
theorem run_of_declare_eq {set : String} {before : Tables} (h : v.declare set before = t)
    (log : List String) :
    ((⟨v, set, t⟩ : Miner).run log).1 = ⟨v, set, v.mineOver before (set, log)⟩ := by
  rw [mineOver, h]
  rfl

/-- Once a set is declared, a miner for it does what replaying does. -/
theorem Declared.foldl_mineOver {set : String} (h : v.Declared set t) (logs : List (List String)) :
    (logs.map (set, ·)).foldl v.mineOver t = ((⟨v, set, t⟩ : Miner).runAll logs).tables := by
  induction logs generalizing t with
  | nil => rfl
  | cons log logs ih =>
      rw [List.map_cons, List.foldl_cons, ih (declared_mineOver h.wellFormed (set, log)),
        Miner.runAll, Miner.runAll, List.foldl_cons, run_of_declare_eq h.declare_eq]

/-- **Merging per-log tables equals mining the logs one after another.** Laying the tables of logs, each
    mined on its own, over one another gives exactly the tables into which the same logs are entered in
    order: the same rows, as visible, with the same cells, in both matrices. If all logs have one set,
    these are the tables of a single miner that runs them all. There has to be a log for that, since a
    miner declares the rows of its set before it has seen any. -/
theorem merge_eq_replay (v : Variant) (logs : List (String × List String)) :
    v.merge logs = v.replay logs
      ∧ ∀ (set : String) (first : List String) (rest : List (List String)),
          v.merge ((first :: rest).map (set, ·))
            = ((Miner.new v set).runAll (first :: rest)).tables := by
  have hreplay : ∀ logs, v.merge logs = v.replay logs :=
    fun logs => foldl_absorb_eq_foldl_mineOver (.empty v) logs
  refine ⟨hreplay logs, fun set first rest => ?_⟩
  -- The first log is entered into the tables of a new miner, all others into declared ones.
  have hdeclared := declared_mineOver (.empty v.columns) (set, first)
  rw [hreplay, replay, List.map_cons, List.foldl_cons, hdeclared.foldl_mineOver, Miner.runAll,
    Miner.runAll, List.foldl_cons, Miner.new,
    run_of_declare_eq (v.freshTables_eq_declare set).symm]

end Variant

end BenchLog
