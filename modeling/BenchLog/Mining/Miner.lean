import BenchLog.Mining.Syscall

/-!
# `BenchLog.Mining.Miner` — tables from whole logs

A miner takes logs of one kind, one after the other, and enters the outcome of every section into its
tables: later sections write over earlier ones. The tables of the syscall log start with a row for every
listed number of instances and a hidden one for all others, so that their shape does not depend on what
the logs hold.

## Contents
- `Variant.mine?`, `Variant.outcomes`, the outcomes of sections;
- `Miner` with `new` and `run`; `mineLog`, a miner on a single log.
-/

namespace BenchLog

namespace Variant

/-- The outcome of one section; nothing where the kind needs a first line and the log has none. -/
def mine? (v : Variant) (set : String) (log : List String) (s : Section) : Option Outcome :=
  match v with
  | .counter => some (Counter.mine log s)
  | .syscall => Syscall.mine? set log s

/-- The sections that are mined, with their outcomes. -/
def outcomes (v : Variant) (set : String) (log : List String) : List (Section × Outcome) :=
  (v.sections log).filterMap fun s => (v.mine? set log s).map fun outcome => (s, outcome)

/-- The tables before any log. -/
def freshTables (v : Variant) (set : String) : Tables :=
  match v with
  | .counter => .empty v.columns
  | .syscall =>
    let keys := Axis.syscallInstances.labels.map (RowKey.labelled set)
    (keys.foldl Tables.ensure (Tables.empty v.columns)).hide (.labelled set Axis.otherLabel)

end Variant

/-- Tables under construction. -/
structure Miner where
  variant : Variant
  set : String
  tables : Tables
deriving DecidableEq, Repr

namespace Miner

/-- A miner whose rows carry `set` where the kind of log labels its rows. -/
def new (variant : Variant) (set : String) : Miner := ⟨variant, set, variant.freshTables set⟩

/-- Mines a log. -/
def run (m : Miner) (log : List String) : Miner × Summary :=
  let outcomes := (m.variant.outcomes m.set log).map Prod.snd
  ({ m with tables := outcomes.foldl Tables.enter m.tables },
    outcomes.foldl (Summary.add m.variant.columns) {})

end Miner

/-- The tables and the summary of a single log. -/
def mineLog (variant : Variant) (set : String) (log : List String) : Tables × Summary :=
  let (miner, summary) := (Miner.new variant set).run log
  (miner.tables, summary)

end BenchLog
