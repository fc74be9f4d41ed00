import BenchLog.Axis
import BenchLog.Table.Row

/-!
# `BenchLog.Table.Matrix` — one value per row and bucket

A matrix has the buckets of an axis as its columns and keeps its rows in the order in which their keys
were first seen. Every row is as wide as the axis, its unmapped bucket included, so that a write for a
value that the axis does not list never lands in a labelled column.

## Contents
- `Matrix` with `indexOf?`, `row?`, `get?`;
- `ensure`, `write`, `hide`, on the row of one key;
- `absorb`, one matrix laid over another.
-/

namespace BenchLog

/-- Rows of cells over the buckets of an axis. -/
structure Matrix where
  columns : Axis
  rows : List Row
deriving DecidableEq, Repr

namespace Matrix

/-- The matrix without rows. -/
def empty (columns : Axis) : Matrix := ⟨columns, []⟩

/-- The position of the row of a key. -/
def indexOf? (m : Matrix) (key : RowKey) : Option Nat := m.rows.findIdx? (·.key = key)

/-- The row of a key. -/
def row? (m : Matrix) (key : RowKey) : Option Row := m.rows.find? (·.key = key)

/-- What a cell holds, if its row is there and it has been written. -/
def get? (m : Matrix) (key : RowKey) (bucket : Nat) : Option UInt64 :=
  (m.row? key).bind (·.cell? bucket)

/-- Changes the row of a key, which is put last if it is not there. -/
def alter (m : Matrix) (key : RowKey) (change : Row → Row) : Matrix :=
  { m with rows := upsert change (Row.blank m.columns.width key) m.rows }

/-- Makes sure that a key has a row. -/
def ensure (m : Matrix) (key : RowKey) : Matrix := m.alter key id

/-- Writes a cell. A bucket past the axis counts as the unmapped one. -/
def write (m : Matrix) (key : RowKey) (bucket : Nat) (value : UInt64) : Matrix :=
  m.alter key (Row.write (min bucket m.columns.unmapped) value)

/-- Hides the row of a key, which is put there if need be. -/
def hide (m : Matrix) (key : RowKey) : Matrix := m.alter key Row.hide

/-- Lays one row of another matrix over this one. A row that is new here is as visible as it was there;
a row that is known here stays as it is. -/
def absorbRow (m : Matrix) (other : Row) : Matrix :=
  { m with
    rows := upsert (Row.overlay other)
      { Row.blank m.columns.width other.key with visible := other.visible } m.rows }

/-- Lays another matrix over this one, row by row. -/
def absorb (m other : Matrix) : Matrix := other.rows.foldl absorbRow m

end Matrix

end BenchLog
