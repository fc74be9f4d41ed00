import BenchLog.Table.Matrix

/-!
# `BenchLog.Table.Pair` — values and missed counts

Mining gives two matrices of the same shape: the chosen values and the counts that were missed while they
were taken. Whatever is done to one is done to the other.

## Contents
- `Tables` with `ensure`, `hide`, `record`, `absorb`.
-/

namespace BenchLog

/-- The values of a table and the counts missed along with them. -/
structure Tables where
  values : Matrix
  missed : Matrix
deriving DecidableEq, Repr

namespace Tables

/-- Tables without rows. -/
def empty (columns : Axis) : Tables := ⟨.empty columns, .empty columns⟩

/-- Makes sure that a key has a row. -/
def ensure (t : Tables) (key : RowKey) : Tables := ⟨t.values.ensure key, t.missed.ensure key⟩

/-- Hides the row of a key. -/
def hide (t : Tables) (key : RowKey) : Tables := ⟨t.values.hide key, t.missed.hide key⟩

/-- Writes a value and its missed count to the same cell. -/
def record (t : Tables) (key : RowKey) (bucket : Nat) (value missed : UInt64) : Tables :=
  ⟨t.values.write key bucket value, t.missed.write key bucket missed⟩

/-- Lays other tables over these. -/
def absorb (t other : Tables) : Tables :=
  ⟨t.values.absorb other.values, t.missed.absorb other.missed⟩

end Tables

end BenchLog
