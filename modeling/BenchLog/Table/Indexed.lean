import BenchLog.Table.Matrix

/-!
# `BenchLog.Table.Indexed` — a matrix with an index of its rows

A matrix finds the row of a key by looking through its rows. Here an index is kept beside the rows that says
at which position the row of each key stands, and rows are reached by their position only. Rows and index say
the same thing twice, so every operation has to keep them in step, and a position or a bucket may turn out to
lie outside the rows or the cells that there are: an operation that comes to such a place has no outcome.

## Contents
- `Indexed` with `empty`, `row?`, `get?`, `position`;
- `write?`, `hide?`, on the row of one key; `absorb?`, one matrix laid over another;
- `Matrix.indexed`, a matrix with the index that belongs to it.
-/

namespace BenchLog

/-- Writes one cell, if the row has it. -/
def Row.write? (bucket : Nat) (value : UInt64) (r : Row) : Option Row :=
  if bucket < r.cells.length then some (r.write bucket value) else none

/-- A matrix and the position of the row of each key. -/
structure Indexed where
  columns : Axis
  rows : List Row
  index : RowKey → Option Nat

namespace Indexed

/-- The matrix without its index. -/
def matrix (x : Indexed) : Matrix := ⟨x.columns, x.rows⟩

/-- The matrix without rows. -/
def empty (columns : Axis) : Indexed := ⟨columns, [], fun _ => none⟩

/-- The row of a key, if it has one; no outcome where the index leads past the rows. -/
def row? (x : Indexed) (key : RowKey) : Option (Option Row) :=
  match x.index key with
  | none => some none
  | some i => x.rows[i]?.map some

/-- What a cell holds, if its row is there and it has been written; no outcome where `row?` has none. -/
def get? (x : Indexed) (key : RowKey) (bucket : Nat) : Option (Option UInt64) := do
  let row ← x.row? key
  return row.bind (·.cell? bucket)

/-- The position of the row of a key, which is put last if it is not there. -/
def position (x : Indexed) (key : RowKey) : Indexed × Nat :=
  match x.index key with
  | some i => (x, i)
  | none =>
    ({ x with
        rows := x.rows ++ [.blank x.columns.width key]
        index := fun k => if k = key then some x.rows.length else x.index k },
      x.rows.length)

/-- Changes the row at a position. -/
def changeAt? (x : Indexed) (i : Nat) (change : Row → Option Row) : Option Indexed := do
  let row ← x.rows[i]?
  let changed ← change row
  return { x with rows := x.rows.set i changed }

/-- Writes a cell. A bucket past the axis counts as the unmapped one. -/
def write? (x : Indexed) (key : RowKey) (bucket : Nat) (value : UInt64) : Option Indexed :=
  let (x, i) := x.position key
  x.changeAt? i (Row.write? (min bucket x.columns.unmapped) value)

/-- Hides the row of a key, which is put there if need be. -/
def hide? (x : Indexed) (key : RowKey) : Option Indexed :=
  let (x, i) := x.position key
  x.changeAt? i fun r => some r.hide

/-- Lays one row of another matrix over this one. A row that is new here becomes as visible as it was
there. -/
def absorbRow? (x : Indexed) (other : Row) : Option Indexed :=
  let known := (x.index other.key).isSome
  let (x, i) := x.position other.key
  x.changeAt? i fun r =>
    some (Row.overlay other (if known then r else { r with visible := other.visible }))

/-- Lays another matrix over this one, row by row. -/
def absorb? (x other : Indexed) : Option Indexed := other.rows.foldlM absorbRow? x

end Indexed

/-- A matrix with the index of its rows. -/
def Matrix.indexed (m : Matrix) : Indexed := ⟨m.columns, m.rows, m.indexOf?⟩

end BenchLog
