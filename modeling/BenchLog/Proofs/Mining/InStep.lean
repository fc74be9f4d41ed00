import BenchLog.Job.Run
import BenchLog.Proofs.Mining.Entries
import BenchLog.Proofs.Table.Pattern

/-!
# `BenchLog.Proofs.Mining.InStep` — values and missed counts stay side by side

A value means little without the count that was missed while it was taken. The two are kept in matrices of
their own, each of which finds its rows for itself; nothing but the way in which they are filled ties them
together. Here it is shown that miners and jobs fill them through the operations on pairs only, so that
the two never fall out of step.

## Contents
- `Tables.Reachable.enter`, `Miner.reachable_runAll`, `reachable_mineLog`, `Job.reachable_mine`: where tables
  come from;
- `Tables.values_missed_in_step`, and a pair with hidden, merged and overlong rows for which it is stated.
-/

namespace BenchLog

/-! ## Where tables come from -/

namespace Tables

variable {axis : Axis} {t : Tables}

theorem Reachable.foldl_ensure (h : Reachable axis t) (keys : List RowKey) :
    Reachable axis (keys.foldl Tables.ensure t) := by
  induction keys generalizing t with
  | nil => exact h
  | cons key keys ih => exact ih (h.ensure key)

theorem Reachable.enter (h : Reachable axis t) (o : Outcome) : Reachable axis (t.enter o) := by
  cases o with
  | recorded row bucket value missed unlisted => exact h.record row bucket value missed
  | degenerate row bucket reason => exact h.record row bucket 0 0
  | skipped reason => exact h

theorem Reachable.foldl_enter (h : Reachable axis t) (os : List Outcome) :
    Reachable axis (os.foldl Tables.enter t) := by
  induction os generalizing t with
  | nil => exact h
  | cons o os ih => exact ih (h.enter o)

end Tables

theorem Variant.reachable_freshTables (v : Variant) (set : String) :
    Tables.Reachable v.columns (v.freshTables set) := by
  cases v with
  | counter => exact .empty
  | syscall => exact (Tables.Reachable.empty.foldl_ensure _).hide _

theorem Miner.reachable_run {m : Miner} (h : Tables.Reachable m.variant.columns m.tables)
    (log : List String) : Tables.Reachable m.variant.columns (m.run log).1.tables :=
  h.foldl_enter _

theorem Miner.reachable_runAll {m : Miner} (h : Tables.Reachable m.variant.columns m.tables)
    (logs : List (List String)) : Tables.Reachable m.variant.columns (m.runAll logs).tables := by
  induction logs generalizing m with
  | nil => exact h
  | cons log logs ih => exact ih (m := (m.run log).1) (reachable_run h log)

theorem reachable_mineLog (v : Variant) (set : String) (log : List String) :
    Tables.Reachable v.columns (mineLog v set log).1 :=
  Miner.reachable_run (m := Miner.new v set) (v.reachable_freshTables set) log

namespace Job

variable {job : Job} {read : String → Option (List UInt8)} {t merged : Tables}

theorem reachable_mineLogs (h : Tables.Reachable job.variant.columns t) {logs : List LogSpec}
    (hmerged : (job.mineLogs read t logs).2 = .ok merged) :
    Tables.Reachable job.variant.columns merged := by
  induction logs generalizing t with
  | nil =>
      obtain rfl := Except.ok.inj hmerged
      exact h
  | cons log logs ih =>
      rw [mineLogs, mineFile] at hmerged
      cases hread : read log.path with
      | none =>
          rw [hread] at hmerged
          exact nomatch hmerged
      | some bytes =>
          rw [hread] at hmerged
          exact ih (h.absorb (reachable_mineLog _ _ _)) hmerged

theorem reachable_mine (h : (job.mine read).2 = .ok merged) :
    Tables.Reachable job.variant.columns merged :=
  reachable_mineLogs .empty h

end Job

/-! ## Side by side -/

namespace Tables

/-- **The values and the missed counts never fall out of step.** Whatever is done to empty tables, by
    making sure of rows, hiding them, recording into any bucket and laying over tables that were made in
    the same way, both matrices have the same keys in the same order and as visible, and the same cells
    are written in both. So it is with the tables of every miner, whatever logs it has run, and with the
    merged tables of every job. -/
theorem values_missed_in_step :
    (∀ (axis : Axis) (t : Tables), Reachable axis t → t.InStep)
      ∧ (∀ (v : Variant) (set : String) (logs : List (List String)),
          ((Miner.new v set).runAll logs).tables.InStep)
      ∧ ∀ (job : Job) (read : String → Option (List UInt8)) (merged : Tables),
          (job.mine read).2 = .ok merged → merged.InStep := by
  refine ⟨fun axis t h => h.inStep, fun v set logs => ?_, fun job read merged h => ?_⟩
  · exact (Miner.reachable_runAll (m := Miner.new v set) (v.reachable_freshTables set) logs).inStep
  · exact (Job.reachable_mine h).inStep

/-- Tables of one set, of which one row is hidden. -/
def hiddenSample : Tables :=
  ((empty .syscallThreads).record (.labelled "fl" "96") 6 150 5).hide (.labelled "fl" "other")

/-- Tables of another set and of the hidden row, written past the axis. -/
def overlongSample : Tables :=
  ((empty .syscallThreads).record (.labelled "fl" "other") 99 7 0).record (.labelled "sa" "96") 0 1 1

/-- A job on two logs without lines. -/
def emptyLogsSample : Job := ⟨"t", .syscall, [⟨"fl", "a.log"⟩, ⟨"sa", "b.log"⟩]⟩

theorem values_missed_in_step_merged :
    (Reachable .syscallThreads (hiddenSample.absorb overlongSample)
        ∧ (hiddenSample.absorb overlongSample).InStep)
      ∧ ∃ merged, (emptyLogsSample.mine fun _ => some []).2 = .ok merged ∧ merged.InStep := by
  have h : Reachable .syscallThreads (hiddenSample.absorb overlongSample) :=
    ((Reachable.empty.record _ 6 150 5).hide _).absorb
      ((Reachable.empty.record _ 99 7 0).record _ 0 1 1)
  exact ⟨⟨h, values_missed_in_step.1 _ _ h⟩, _, rfl,
    values_missed_in_step.2.2 emptyLogsSample (fun _ => some []) _ rfl⟩

end Tables

end BenchLog
