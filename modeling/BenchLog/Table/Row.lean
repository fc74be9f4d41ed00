import BenchLog.Decimal.Numeral
import BenchLog.Text.Blank

/-!
# `BenchLog.Table.Row` — the rows of a table

A row is known by its key and has one cell per bucket of an axis. A cell holds a value once it has been
written; an unwritten one counts as zero. A hidden row is kept and written like any other but is no part
of what is exported.

## Contents
- `RowKey`, for a scenario of the counter log or a labelled row of the syscall log;
- `Row`, with `blank`, `write`, `hide` and `overlay`;
- `upsert`, a change to the row of one key.
-/

namespace BenchLog

/-- What a row is known by. -/
structure RowKey where
  text : String
deriving DecidableEq, Repr

/-- The key of a scenario of the counter log. -/
def RowKey.scenario (tag : String) (max a b : UInt64) : RowKey :=
  ⟨Text.trimText tag ++ ":" ++ Decimal.text max ++ "/" ++ Decimal.text a ++ "-" ++ Decimal.text b⟩

/-- The key of one label of a set. -/
def RowKey.labelled (set label : String) : RowKey := ⟨set ++ ":" ++ label⟩

/-- A row of a table. -/
structure Row where
  key : RowKey
  cells : List (Option UInt64)
  visible : Bool
deriving DecidableEq, Repr

namespace Row

/-- A visible row of unwritten cells. -/
def blank (width : Nat) (key : RowKey) : Row := ⟨key, List.replicate width none, true⟩

/-- What a cell holds, if it has been written. -/
def cell? (r : Row) (bucket : Nat) : Option UInt64 := r.cells[bucket]?.join

/-- What a cell counts as. -/
def value (r : Row) (bucket : Nat) : UInt64 := (r.cell? bucket).getD 0

/-- Writes one cell. -/
def write (bucket : Nat) (value : UInt64) (r : Row) : Row :=
  { r with cells := r.cells.set bucket (some value) }

/-- Takes a row out of what is exported. -/
def hide (r : Row) : Row := { r with visible := false }

/-- Cells over which others are laid: a written cell covers, an unwritten one lets through. -/
def overlayCells : List (Option UInt64) → List (Option UInt64) → List (Option UInt64)
  | [], _ => []
  | old :: olds, [] => old :: olds
  | old :: olds, new :: news => new.or old :: overlayCells olds news

/-- Lays the cells of another row over those of this one. -/
def overlay (other : Row) (r : Row) : Row :=
  { r with cells := overlayCells r.cells other.cells }

end Row

/-- Changes the row with the key of `fresh`; where there is none, `fresh` is changed and put last. -/
def upsert (change : Row → Row) (fresh : Row) : List Row → List Row
  | [] => [change fresh]
  | r :: rows => if r.key = fresh.key then change r :: rows else r :: upsert change fresh rows

end BenchLog
