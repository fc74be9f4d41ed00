import BenchLog.Proofs.Table.Absorb

/-!
# `BenchLog.Proofs.Table.Pattern` — which cells are written

The pattern of a matrix is the matrix with a zero in the place of every written value: it shows which rows
there are, which of them are visible, and which cells have been written, but not what was written to them.
Every operation on a matrix has its like on patterns, so that two matrices to which the same has been done,
with whatever values, have one pattern. That is all there is to say about the two matrices of a pair.

## Contents
- `Row.pattern`, `Matrix.pattern`, and what they leave alone;
- `Matrix.pattern_ensure`, `pattern_hide`, `pattern_write`, `pattern_absorb`: an operation before or after;
- `Tables.Reachable`, what operations make of empty tables, and `Tables.Reachable.pattern_eq`;
- `Tables.InStep`, the two matrices of a pair side by side, and `Tables.Reachable.inStep`.
-/

namespace BenchLog

/-! ## One row -/

namespace Row

/-- A row with a zero in the place of every written value. -/
def pattern (r : Row) : Row := { r with cells := r.cells.map (·.map fun _ => 0) }

theorem key_pattern (r : Row) : r.pattern.key = r.key := rfl

theorem cell?_pattern (r : Row) (b : Nat) : r.pattern.cell? b = (r.cell? b).map fun _ => 0 := by
  rw [cell?, cell?, pattern, List.getElem?_map]
  cases r.cells[b]? <;> rfl

theorem pattern_blank (width : Nat) (key : RowKey) : (blank width key).pattern = blank width key := by
  simp only [pattern, blank, List.map_replicate, Option.map_none]

theorem pattern_write (bucket : Nat) (value : UInt64) (r : Row) :
    (r.write bucket value).pattern = r.pattern.write bucket 0 := by
  simp only [pattern, write, List.map_set, Option.map_some]

theorem map_overlayCells (f : UInt64 → UInt64) (olds news : List (Option UInt64)) :
    (overlayCells olds news).map (·.map f)
      = overlayCells (olds.map (·.map f)) (news.map (·.map f)) := by
  fun_induction overlayCells olds news with
  | case1 => rfl
  | case2 => rfl
  | case3 old olds new news ih =>
      simp only [List.map_cons, overlayCells, Option.map_or, ih]

theorem pattern_overlay (other r : Row) :
    (overlay other r).pattern = overlay other.pattern r.pattern := by
  simp only [pattern, overlay, map_overlayCells]

end Row

/-! ## One matrix -/

namespace Matrix

variable {m other : Matrix} {key : RowKey}

/-- A matrix with a zero in the place of every written value. -/
def pattern (m : Matrix) : Matrix := { m with rows := m.rows.map Row.pattern }

theorem outline_pattern (m : Matrix) : m.pattern.outline = m.outline := by
  rw [outline, pattern, List.map_map]
  rfl

theorem row?_pattern (m : Matrix) (key : RowKey) :
    m.pattern.row? key = (m.row? key).map Row.pattern := by
  rw [row?, pattern, List.find?_map]
  rfl

/-- A pattern shows which cells are written. -/
theorem get?_pattern (m : Matrix) (key : RowKey) (bucket : Nat) :
    m.pattern.get? key bucket = (m.get? key bucket).map fun _ => 0 := by
  rw [get?, get?, row?_pattern]
  cases m.row? key with
  | none => rfl
  | some r => exact Row.cell?_pattern r bucket

/-- A change to the row of a key may be made before or after the values are forgotten. -/
theorem pattern_alter {change change' : Row → Row}
    (hchange : ∀ r, (change r).pattern = change' r.pattern) :
    (m.alter key change).pattern = m.pattern.alter key change' := by
  -- A new row starts blank, and a blank row is its own pattern.
  have hrows := map_upsert_comm Row.key_pattern hchange (.blank m.columns.width key) m.rows
  rw [Row.pattern_blank] at hrows
  exact congrArg (Matrix.mk m.columns) hrows

theorem pattern_ensure : (m.ensure key).pattern = m.pattern.ensure key :=
  pattern_alter fun _ => rfl

theorem pattern_hide : (m.hide key).pattern = m.pattern.hide key := pattern_alter fun _ => rfl

/-- Of a write only the place shows. -/
theorem pattern_write (bucket : Nat) (value : UInt64) :
    (m.write key bucket value).pattern = m.pattern.write key bucket 0 :=
  pattern_alter fun r => Row.pattern_write _ value r

theorem pattern_absorbRow (r : Row) : (m.absorbRow r).pattern = m.pattern.absorbRow r.pattern := by
  have hblank : ({ Row.blank m.columns.width r.key with visible := r.visible } : Row).pattern
      = { Row.blank m.columns.width r.key with visible := r.visible } :=
    congrArg (fun row : Row => { row with visible := r.visible }) (Row.pattern_blank _ r.key)
  have hrows := map_upsert_comm Row.key_pattern (Row.pattern_overlay r)
    { Row.blank m.columns.width r.key with visible := r.visible } m.rows
  rw [hblank] at hrows
  exact congrArg (Matrix.mk m.columns) hrows

theorem pattern_foldl_absorbRow (rows : List Row) (m : Matrix) :
    (rows.foldl absorbRow m).pattern = (rows.map Row.pattern).foldl absorbRow m.pattern := by
  induction rows generalizing m with
  | nil => rfl
  | cons r rows ih => rw [List.foldl_cons, ih, pattern_absorbRow, List.map_cons, List.foldl_cons]

theorem pattern_absorb : (m.absorb other).pattern = m.pattern.absorb other.pattern :=
  pattern_foldl_absorbRow other.rows m

end Matrix

/-! ## The two matrices of a pair -/

namespace Tables

variable {axis : Axis} {t : Tables}

/-- The tables over an axis that can be made from empty ones. -/
inductive Reachable (axis : Axis) : Tables → Prop where
  | empty : Reachable axis (empty axis)
  | ensure {t : Tables} (h : Reachable axis t) (key : RowKey) : Reachable axis (t.ensure key)
  | hide {t : Tables} (h : Reachable axis t) (key : RowKey) : Reachable axis (t.hide key)
  | record {t : Tables} (h : Reachable axis t) (key : RowKey) (bucket : Nat)
      (value missed : UInt64) : Reachable axis (t.record key bucket value missed)
  | absorb {t other : Tables} (h : Reachable axis t) (hother : Reachable axis other) :
      Reachable axis (t.absorb other)

/-- Whatever is done to tables, both matrices keep one pattern. -/
theorem Reachable.pattern_eq (h : Reachable axis t) : t.values.pattern = t.missed.pattern := by
  induction h with
  | empty => rfl
  | ensure _ key ih => simp only [Tables.ensure, Matrix.pattern_ensure, ih]
  | hide _ key ih => simp only [Tables.hide, Matrix.pattern_hide, ih]
  | record _ key bucket value missed ih => simp only [Tables.record, Matrix.pattern_write, ih]
  | absorb _ _ ih ihother => simp only [Tables.absorb, Matrix.pattern_absorb, ih, ihother]

/-- Both matrices have the same keys in the same order with the same visibility, and a cell is written in
    one of them exactly when it is written in the other. -/
structure InStep (t : Tables) : Prop where
  outline_eq : t.values.outline = t.missed.outline
  written_iff : ∀ key bucket, (t.values.get? key bucket).isSome ↔ (t.missed.get? key bucket).isSome

theorem inStep_of_pattern_eq (h : t.values.pattern = t.missed.pattern) : t.InStep where
  outline_eq := by rw [← Matrix.outline_pattern, h, Matrix.outline_pattern]
  written_iff := by
    intro key bucket
    have hcell := congrArg (fun m : Matrix => (m.get? key bucket).isSome) h
    simp only [Matrix.get?_pattern, Option.isSome_map] at hcell
    rw [hcell]

theorem Reachable.inStep (h : Reachable axis t) : t.InStep := inStep_of_pattern_eq h.pattern_eq

end Tables

end BenchLog
