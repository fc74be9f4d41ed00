import BenchLog.Proofs.Table.History
import BenchLog.Table.Indexed

/-!
# `BenchLog.Proofs.Table.Indexed` — the index of a matrix never goes wrong

An operation by way of the index may find the index at odds with the rows, or come to a position or a bucket
where there is nothing. Here it is shown that neither happens to a matrix that is made by operations alone:
from a well-formed matrix with the index that belongs to it, every operation leads to the matrix that the
same operation makes without an index, again with the index that belongs to it (`apply?_indexed`,
`absorb?_indexed`). What holds of well-formed matrices therefore holds of indexed ones, and the index needs no
thought of its own.

Keys are only ever added behind the others, so the keys of a matrix are where the keys of every later one
begin, and a position once given to a key is its position ever after (`Indexed.Later.index_eq`).

## Contents
- `Matrix.indexOf?_eq_some_iff`, `indexOf?_eq_none_iff`, `indexOf?_congr`: the index is that of the keys;
- `position_indexed`, `changeAt?_indexed`: finding a row and changing it, with and without an index;
- `get?_indexed`, `apply?_indexed`, `absorb?_indexed`: one operation;
- `Indexed.Reachable` and `Indexed.reachable_iff`: any number of operations;
- `Indexed.Later`, what they make of a matrix, and `Later.index_eq`;
- `Indexed.Consistent`, and `Indexed.reachable_laws`.
-/

namespace BenchLog

/-! ## Steps of an operation -/

namespace Indexed

variable {x : Indexed} {key : RowKey} {i : Nat}

theorem row?_of_some (h : x.index key = some i) : x.row? key = x.rows[i]?.map some := by
  rw [row?, h]

theorem row?_of_none (h : x.index key = none) : x.row? key = some none := by
  rw [row?, h]

theorem position_of_some (h : x.index key = some i) : x.position key = (x, i) := by
  rw [position, h]

theorem position_of_none (h : x.index key = none) :
    x.position key
      = (⟨x.columns, x.rows ++ [.blank x.columns.width key],
          fun k => if k = key then some x.rows.length else x.index k⟩, x.rows.length) := by
  rw [position, h]

theorem changeAt?_of_some {change : Row → Option Row} {r changed : Row} (hr : x.rows[i]? = some r)
    (hchange : change r = some changed) :
    x.changeAt? i change = some ⟨x.columns, x.rows.set i changed, x.index⟩ := by
  unfold changeAt?
  rw [hr]
  show ((change r).bind fun changed => _) = _
  rw [hchange]
  rfl

theorem eq_indexed {m : Matrix} (hcolumns : x.columns = m.columns) (hrows : x.rows = m.rows)
    (hindex : x.index = m.indexOf?) : x = m.indexed := by
  obtain ⟨columns, rows, index⟩ := x
  obtain rfl : columns = m.columns := hcolumns
  obtain rfl : rows = m.rows := hrows
  obtain rfl : index = m.indexOf? := hindex
  rfl

end Indexed

namespace Matrix

variable {axis : Axis} {m : Matrix} {key : RowKey}

/-! ## The index of the keys -/

theorem indexOf?_eq_findIdx?_keys (m : Matrix) (key : RowKey) :
    m.indexOf? key = m.keys.findIdx? (· = key) := by
  rw [keys, List.findIdx?_map]
  rfl

/-- Matrices with the same keys have the same index. -/
theorem indexOf?_congr {n : Matrix} (h : m.keys = n.keys) : m.indexOf? = n.indexOf? := by
  funext key
  rw [indexOf?_eq_findIdx?_keys, indexOf?_eq_findIdx?_keys, h]

theorem indexOf?_eq_none_iff : m.indexOf? key = none ↔ key ∉ m.keys := by
  rw [indexOf?_eq_findIdx?_keys, List.findIdx?_eq_none_iff]
  constructor
  · intro h hmem
    simpa using h key hmem
  · rintro h k hk
    exact decide_eq_false fun heq => h (heq ▸ hk)

/-- Where keys are distinct, the index gives the one position at which a key stands. -/
theorem indexOf?_eq_some_iff (h : m.keys.Nodup) {i : Nat} :
    m.indexOf? key = some i ↔ m.keys[i]? = some key := by
  rw [indexOf?_eq_findIdx?_keys, List.findIdx?_eq_some_iff_getElem]
  constructor
  · rintro ⟨hi, hkey, -⟩
    rw [List.getElem?_eq_getElem hi, of_decide_eq_true hkey]
  · intro hkey
    obtain ⟨hi, rfl⟩ := List.getElem?_eq_some_iff.1 hkey
    refine ⟨hi, decide_eq_true rfl, fun j hj heq => ?_⟩
    have hij : j = i := (List.Nodup.getElem_inj_iff h).1 (of_decide_eq_true heq)
    omega

/-! ## Finding a row and changing it -/

/-- The row of a key that is not there is put last. -/
theorem rows_alter_of_not_mem (h : key ∉ m.keys) (f : Row → Row) :
    (m.alter key f).rows = m.rows ++ [f (.blank m.columns.width key)] :=
  upsert_of_not_mem h

/-- A key that is not there gets the position behind all others. -/
theorem indexOf?_ensure_of_not_mem (h : key ∉ m.keys) (k : RowKey) :
    (m.ensure key).indexOf? k = if k = key then some m.rows.length else m.indexOf? k := by
  have hnone : m.keys.findIdx? (· = key) = none := by
    rw [← indexOf?_eq_findIdx?_keys, indexOf?_eq_none_iff.2 h]
  rw [indexOf?_eq_findIdx?_keys, indexOf?_eq_findIdx?_keys, keys_ensure, addKey, if_neg h,
    List.findIdx?_append]
  by_cases hk : k = key
  · subst hk
    rw [hnone, if_pos rfl]
    simp [keys]
  · rw [if_neg hk, List.findIdx?_singleton, if_neg (by simpa using Ne.symm hk)]
    simp

theorem mem_keys_of_indexOf? {i : Nat} (h : m.indexOf? key = some i) : key ∈ m.keys := by
  refine Decidable.byContradiction fun hnot => ?_
  exact nomatch h.symm.trans (indexOf?_eq_none_iff.2 hnot)

/-- Where a key is put by way of the index is where its row is. -/
theorem position_indexed (h : WellFormed axis m) (key : RowKey) :
    ∃ i, m.indexed.position key = ((m.ensure key).indexed, i)
      ∧ (m.ensure key).indexOf? key = some i := by
  cases hindex : m.indexOf? key with
  | some i =>
      rw [h.ensure_of_mem (mem_keys_of_indexOf? hindex)]
      exact ⟨i, Indexed.position_of_some hindex, hindex⟩
  | none =>
      have hnot : key ∉ m.keys := indexOf?_eq_none_iff.1 hindex
      have hindex' := indexOf?_ensure_of_not_mem hnot
      refine ⟨m.rows.length, ?_, (hindex' key).trans (if_pos rfl)⟩
      rw [Indexed.position_of_none hindex]
      refine Prod.ext (Indexed.eq_indexed rfl ?_ (funext fun k => (hindex' k).symm)) rfl
      exact (rows_alter_of_not_mem hnot id).symm

/-- A change to the row at the position of a key is a change to the row of the key. -/
theorem changeAt?_indexed {i : Nat} (hi : m.indexOf? key = some i) {change : Row → Option Row}
    {f : Row → Row} (hkey : ∀ r, (f r).key = r.key) (hchange : ∀ r ∈ m.rows, change r = some (f r)) :
    m.indexed.changeAt? i change = some (m.alter key f).indexed := by
  obtain ⟨hpos, -⟩ := List.findIdx?_eq_some_iff_getElem.1 hi
  have hrow : m.indexed.rows[i]? = some m.rows[i] := List.getElem?_eq_getElem hpos
  have hrows : (m.alter key f).rows = m.rows.set i (f m.rows[i]) := upsert_of_findIdx? hi hrow
  have hindex : (m.alter key f).indexOf? = m.indexOf? := by
    apply indexOf?_congr
    rw [keys_alter hkey, addKey, if_pos (mem_keys_of_indexOf? hi)]
  rw [Indexed.changeAt?_of_some hrow (hchange _ (List.getElem_mem hpos))]
  exact congrArg some (Indexed.eq_indexed rfl hrows.symm hindex.symm)

/-- A change after the row has been put there is the change itself. -/
theorem alter_ensure (m : Matrix) (key : RowKey) (f : Row → Row) :
    (m.ensure key).alter key f = m.alter key f :=
  congrArg (Matrix.mk m.columns) (upsert_upsert_id f _ m.rows)

/-- Finding the position of a key and changing the row there is changing the row of the key. -/
theorem changeAt?_ensure_indexed {i : Nat} (hi : (m.ensure key).indexOf? key = some i)
    {change : Row → Option Row} {f : Row → Row} (hkey : ∀ r, (f r).key = r.key)
    (hchange : ∀ r ∈ (m.ensure key).rows, change r = some (f r)) :
    (m.ensure key).indexed.changeAt? i change = some (m.alter key f).indexed := by
  rw [changeAt?_indexed hi hkey hchange, alter_ensure]

/-! ## One operation -/

/-- Looking a row up by its position finds what looking through the rows finds. -/
theorem row?_indexed (h : WellFormed axis m) (key : RowKey) :
    m.indexed.row? key = some (m.row? key) := by
  cases hindex : m.indexOf? key with
  | none => rw [Indexed.row?_of_none hindex, row?_eq_none_iff.2 (indexOf?_eq_none_iff.1 hindex)]
  | some i =>
      obtain ⟨hi, hkey, -⟩ := List.findIdx?_eq_some_iff_getElem.1 hindex
      have hrow := h.row?_key (List.getElem_mem hi)
      rw [of_decide_eq_true hkey] at hrow
      rw [Indexed.row?_of_some hindex, hrow]
      exact congrArg (Option.map some) (List.getElem?_eq_getElem hi)

theorem get?_indexed (h : WellFormed axis m) (key : RowKey) (bucket : Nat) :
    m.indexed.get? key bucket = some (m.get? key bucket) := by
  rw [Indexed.get?, row?_indexed h]
  rfl

theorem get?_indexed_write (h : WellFormed axis m) (key : RowKey) (bucket : Nat) (value : UInt64)
    (k : RowKey) (b : Nat) :
    (m.write key bucket value).indexed.get? k b
      = if k = key ∧ b = min bucket axis.unmapped then some (some value) else m.indexed.get? k b := by
  rw [get?_indexed (h.write key bucket value), get?_indexed h, h.get?_write]
  split <;> rfl

/-- Every row has a cell for each bucket of the axis, so a write finds its cell. -/
theorem write?_indexed (h : WellFormed axis m) (key : RowKey) (bucket : Nat) (value : UInt64) :
    m.indexed.write? key bucket value = some (m.write key bucket value).indexed := by
  obtain ⟨i, hposition, hi⟩ := position_indexed h key
  unfold Indexed.write?
  rw [hposition]
  refine changeAt?_ensure_indexed hi (Row.key_write _ _) fun r hr => ?_
  have hwidth : min bucket m.columns.unmapped < r.cells.length := by
    rw [(h.ensure key).length_cells r hr, h.columns_eq, Axis.width, Axis.unmapped]
    omega
  exact if_pos hwidth

theorem hide?_indexed (h : WellFormed axis m) (key : RowKey) :
    m.indexed.hide? key = some (m.hide key).indexed := by
  obtain ⟨i, hposition, hi⟩ := position_indexed h key
  unfold Indexed.hide?
  rw [hposition]
  exact changeAt?_ensure_indexed hi Row.key_hide fun _ _ => rfl

/-- Whether a row is new is asked before it is put there; without an index the fresh row says so. -/
theorem absorbRow?_indexed (h : WellFormed axis m) (r : Row) :
    m.indexed.absorbRow? r = some (m.absorbRow r).indexed := by
  obtain ⟨i, hposition, hi⟩ := position_indexed h r.key
  unfold Indexed.absorbRow?
  rw [hposition]
  show (m.ensure r.key).indexed.changeAt? i
    (fun s => some (Row.overlay r (if (m.indexOf? r.key).isSome then s
      else { s with visible := r.visible }))) = _
  cases hindex : m.indexOf? r.key with
  | some j =>
      have habsorb : m.absorbRow r = m.alter r.key (Row.overlay r) :=
        congrArg (Matrix.mk m.columns) (upsert_congr_fresh (mem_keys_of_indexOf? hindex) rfl)
      rw [habsorb]
      exact changeAt?_ensure_indexed hi (Row.key_overlay r) fun _ _ => rfl
  | none =>
      have hnot : r.key ∉ m.keys := indexOf?_eq_none_iff.1 hindex
      have hrows : (m.absorbRow r).rows
          = m.rows ++ [Row.overlay r { Row.blank m.columns.width r.key with visible := r.visible }] :=
        upsert_of_not_mem hnot
      have halter : (m.alter r.key fun s => Row.overlay r { s with visible := r.visible }).rows
          = m.rows ++ [Row.overlay r { Row.blank m.columns.width r.key with visible := r.visible }] :=
        rows_alter_of_not_mem hnot _
      have habsorb : m.absorbRow r
          = m.alter r.key fun s => Row.overlay r { s with visible := r.visible } :=
        congrArg (Matrix.mk m.columns) (hrows.trans halter.symm)
      rw [habsorb]
      exact changeAt?_ensure_indexed hi (fun _ => rfl) fun _ _ => rfl

theorem foldlM_absorbRow?_indexed (h : WellFormed axis m) (rows : List Row) :
    rows.foldlM Indexed.absorbRow? m.indexed = some (rows.foldl absorbRow m).indexed := by
  induction rows generalizing m with
  | nil => rfl
  | cons r rows ih =>
      rw [List.foldlM_cons, absorbRow?_indexed h]
      exact ih (h.absorbRow r)

theorem absorb?_indexed (h : WellFormed axis m) (other : Matrix) :
    m.indexed.absorb? other.indexed = some (m.absorb other).indexed :=
  foldlM_absorbRow?_indexed h other.rows

end Matrix

/-- One operation by way of the index. -/
def Indexed.apply? (x : Indexed) : Matrix.Operation → Option Indexed
  | .ensure key => some (x.position key).1
  | .write key bucket value => x.write? key bucket value
  | .hide key => x.hide? key

namespace Matrix

variable {axis : Axis} {m : Matrix}

theorem apply?_indexed (h : WellFormed axis m) (op : Operation) :
    m.indexed.apply? op = some (m.apply op).indexed := by
  cases op with
  | ensure key =>
      obtain ⟨i, hposition, -⟩ := position_indexed h key
      exact congrArg (fun p => some p.1) hposition
  | write key bucket value => exact write?_indexed h key bucket value
  | hide key => exact hide?_indexed h key

theorem Reachable.apply (h : Reachable axis m) (op : Operation) : Reachable axis (m.apply op) := by
  cases op with
  | ensure key => exact h.ensure key
  | write key bucket value => exact h.write key bucket value
  | hide key => exact h.hide key

/-! ## Where keys stand -/

/-- Keys that follow the others move none of them. -/
theorem indexOf?_of_isPrefix {n : Matrix} (hn : n.keys.Nodup) (hkeys : m.keys <+: n.keys) {key : RowKey}
    {i : Nat} (hi : m.indexOf? key = some i) : n.indexOf? key = some i := by
  rw [indexOf?_eq_some_iff (hn.sublist hkeys.sublist)] at hi
  rw [indexOf?_eq_some_iff hn]
  obtain ⟨hlength, hkey⟩ := List.getElem?_eq_some_iff.1 hi
  rw [← hkey]
  exact List.prefix_iff_getElem?.1 hkeys i hlength

theorem isPrefix_addKey (keys : List RowKey) (key : RowKey) : keys <+: addKey keys key := by
  unfold addKey
  split
  · exact List.prefix_refl keys
  · exact List.prefix_append keys [key]

theorem isPrefix_keys_apply (m : Matrix) (op : Operation) : m.keys <+: (m.apply op).keys := by
  rw [keys_apply]
  exact isPrefix_addKey m.keys op.key

theorem isPrefix_keys_absorb {other : Matrix} (hother : other.keys.Nodup) :
    m.keys <+: (m.absorb other).keys := by
  rw [keys_absorb hother]
  exact List.prefix_append m.keys _

end Matrix

/-! ## Any number of operations -/

namespace Indexed

variable {axis : Axis} {x y : Indexed}

/-- The indexed matrices over an axis that operations make from the empty one. -/
inductive Reachable (axis : Axis) : Indexed → Prop where
  | empty : Reachable axis (empty axis)
  | apply {x y : Indexed} (h : Reachable axis x) (op : Matrix.Operation) (hy : x.apply? op = some y) :
      Reachable axis y
  | absorb {x other y : Indexed} (h : Reachable axis x) (hother : Reachable axis other)
      (hy : x.absorb? other = some y) : Reachable axis y

theorem Reachable.exists_eq_indexed (h : Reachable axis x) :
    ∃ m, Matrix.Reachable axis m ∧ x = m.indexed := by
  induction h with
  | empty => exact ⟨.empty axis, .empty, rfl⟩
  | apply _ op hy ih =>
      obtain ⟨m, hm, rfl⟩ := ih
      rw [Matrix.apply?_indexed hm.wellFormed] at hy
      exact ⟨m.apply op, hm.apply op, (Option.some.inj hy).symm⟩
  | absorb _ _ hy ih ihother =>
      obtain ⟨m, hm, rfl⟩ := ih
      obtain ⟨other, hother, rfl⟩ := ihother
      rw [Matrix.absorb?_indexed hm.wellFormed] at hy
      exact ⟨m.absorb other, hm.absorb hother, (Option.some.inj hy).symm⟩

theorem reachable_indexed {m : Matrix} (h : Matrix.Reachable axis m) : Reachable axis m.indexed := by
  induction h with
  | empty => exact .empty
  | ensure h key ih => exact ih.apply (.ensure key) (Matrix.apply?_indexed h.wellFormed _)
  | write h key bucket value ih =>
      exact ih.apply (.write key bucket value) (Matrix.apply?_indexed h.wellFormed _)
  | hide h key ih => exact ih.apply (.hide key) (Matrix.apply?_indexed h.wellFormed _)
  | absorb h _ ih ihother => exact ih.absorb ihother (Matrix.absorb?_indexed h.wellFormed _)

/-- With an index the same matrices are reached as without one, each with the index that belongs to it. -/
theorem reachable_iff : Reachable axis x ↔ ∃ m, Matrix.Reachable axis m ∧ x = m.indexed := by
  constructor
  · exact Reachable.exists_eq_indexed
  · rintro ⟨m, hm, rfl⟩
    exact reachable_indexed hm

/-- What operations make of a matrix. -/
inductive Later (axis : Axis) (x : Indexed) : Indexed → Prop where
  | refl : Later axis x x
  | apply {y z : Indexed} (h : Later axis x y) (op : Matrix.Operation) (hz : y.apply? op = some z) :
      Later axis x z
  | absorb {y other z : Indexed} (h : Later axis x y) (hother : Reachable axis other)
      (hz : y.absorb? other = some z) : Later axis x z

/-- The keys of a matrix are where those of every later one begin. -/
theorem Later.isPrefix_keys {m : Matrix} (hm : Matrix.Reachable axis m) (h : Later axis m.indexed y) :
    ∃ n, Matrix.Reachable axis n ∧ y = n.indexed ∧ m.keys <+: n.keys := by
  induction h with
  | refl => exact ⟨m, hm, rfl, List.prefix_refl _⟩
  | apply _ op hz ih =>
      obtain ⟨n, hn, rfl, hkeys⟩ := ih
      rw [Matrix.apply?_indexed hn.wellFormed] at hz
      exact ⟨n.apply op, hn.apply op, (Option.some.inj hz).symm,
        hkeys.trans (n.isPrefix_keys_apply op)⟩
  | absorb _ hreach hz ih =>
      obtain ⟨n, hn, rfl, hkeys⟩ := ih
      obtain ⟨other, hother, rfl⟩ := hreach.exists_eq_indexed
      rw [Matrix.absorb?_indexed hn.wellFormed] at hz
      exact ⟨n.absorb other, hn.absorb hother, (Option.some.inj hz).symm,
        hkeys.trans (Matrix.isPrefix_keys_absorb hother.wellFormed.keys_nodup)⟩

/-- A key never changes its position. -/
theorem Later.index_eq (hx : Reachable axis x) (h : Later axis x y) {key : RowKey} {i : Nat}
    (hi : x.index key = some i) : y.index key = some i := by
  obtain ⟨m, hm, rfl⟩ := hx.exists_eq_indexed
  obtain ⟨n, hn, rfl, hkeys⟩ := Later.isPrefix_keys hm h
  exact Matrix.indexOf?_of_isPrefix hn.wellFormed.keys_nodup hkeys hi

/-! ## The invariant and the laws of the cells -/

/-- One row per key, at the position that the index gives, and as many cells in each row as the axis has
    buckets. -/
structure Consistent (axis : Axis) (x : Indexed) : Prop where
  columns_eq : x.columns = axis
  keys_nodup : (x.rows.map (·.key)).Nodup
  index_iff : ∀ key i, x.index key = some i ↔ x.rows[i]?.map (·.key) = some key
  length_cells : ∀ r ∈ x.rows, r.cells.length = axis.width

theorem consistent_indexed {m : Matrix} (h : Matrix.WellFormed axis m) : Consistent axis m.indexed where
  columns_eq := h.columns_eq
  keys_nodup := h.keys_nodup
  index_iff := by
    intro key i
    show m.indexOf? key = some i ↔ m.rows[i]?.map (·.key) = some key
    rw [Matrix.indexOf?_eq_some_iff h.keys_nodup, Matrix.keys, List.getElem?_map]
  length_cells := h.length_cells

/-- **Rows and index never come apart, and no operation leaves them.** Take any matrix that operations make
    of the empty one, with any bucket numbers and with matrices laid over that were made in the same way.
    It is what the operations make without an index, with the index that belongs to it. Its keys are
    distinct, its index gives a key the position of its row and no other, and every row has one cell per
    bucket. Looking up, writing, hiding and laying over always have an outcome, the one they have without
    an index: none of them comes to a position or a bucket that is not there. A write shows in the cell it
    names, a bucket past the axis being the unmapped one, and in no other, so that a value without a
    bucket of its own never lands in a labelled column; hiding a row or asking for its position shows in
    no cell. The position that is given for a key is that of the key in every later matrix. -/
theorem reachable_laws (h : Reachable axis x) :
    (Matrix.Reachable axis x.matrix ∧ x = x.matrix.indexed)
      ∧ Consistent axis x
      ∧ (∀ key bucket, x.get? key bucket = some (x.matrix.get? key bucket))
      ∧ (∀ key bucket value, ∃ y, x.write? key bucket value = some y
          ∧ y.matrix = x.matrix.write key bucket value
          ∧ (∀ k b, y.get? k b
              = if k = key ∧ b = min bucket axis.unmapped then some (some value) else x.get? k b)
          ∧ (axis.isUnmapped bucket → ∀ k, ∀ b < axis.size, y.get? k b = x.get? k b))
      ∧ (∀ key, ∃ y, x.hide? key = some y ∧ y.matrix = x.matrix.hide key
          ∧ ∀ k b, y.get? k b = x.get? k b)
      ∧ (∀ key y i, x.position key = (y, i) →
          y.matrix = x.matrix.ensure key ∧ y.index key = some i ∧ ∀ k b, y.get? k b = x.get? k b)
      ∧ (∀ other, Reachable axis other →
          ∃ y, x.absorb? other = some y ∧ y.matrix = x.matrix.absorb other.matrix)
      ∧ ∀ y, Later axis x y → ∀ key i, x.index key = some i → y.index key = some i := by
  have hlater : ∀ y, Later axis x y → ∀ key i, x.index key = some i → y.index key = some i :=
    fun y hy key i hi => hy.index_eq h hi
  obtain ⟨m, hm, rfl⟩ := h.exists_eq_indexed
  have hwell := hm.wellFormed
  refine ⟨⟨hm, rfl⟩, consistent_indexed hwell, fun key bucket => ?_, fun key bucket value => ?_,
    fun key => ?_, fun key y i hy => ?_, fun other hother => ?_, hlater⟩
  · exact Matrix.get?_indexed hwell key bucket
  · have hcell := Matrix.get?_indexed_write hwell key bucket value
    refine ⟨_, Matrix.write?_indexed hwell key bucket value, rfl, hcell, fun hbucket k b hb => ?_⟩
    have hpast : axis.size ≤ bucket := of_decide_eq_true hbucket
    rw [hcell, if_neg]
    rintro ⟨-, rfl⟩
    rw [Axis.unmapped] at hb
    omega
  · refine ⟨_, Matrix.hide?_indexed hwell key, rfl, fun k b => ?_⟩
    rw [Matrix.get?_indexed (hwell.hide key), Matrix.get?_indexed hwell, Matrix.get?_hide]
  · obtain ⟨j, hposition, hj⟩ := Matrix.position_indexed hwell key
    obtain ⟨rfl, rfl⟩ := Prod.mk.inj (hposition.symm.trans hy)
    refine ⟨rfl, hj, fun k b => ?_⟩
    rw [Matrix.get?_indexed (hwell.ensure key), Matrix.get?_indexed hwell, Matrix.get?_ensure]
  · obtain ⟨other, -, rfl⟩ := hother.exists_eq_indexed
    exact ⟨_, Matrix.absorb?_indexed hwell other, rfl⟩

/-- A matrix of one hidden row. -/
def hiddenRowSample : Indexed :=
  ((Matrix.empty .syscallThreads).hide (.labelled "fl" "other")).indexed

/-- Another row is written far past the axis, and the matrix is then laid over its outcome. -/
theorem reachable_laws_hiddenRowSample :
    Reachable .syscallThreads hiddenRowSample
      ∧ ∃ y, hiddenRowSample.write? (.labelled "fl" "96") 99 7 = some y
        ∧ y.get? (.labelled "fl" "96") 14 = some (some 7)
        ∧ y.get? (.labelled "fl" "96") 6 = some none
        ∧ y.index (.labelled "fl" "other") = some 0
        ∧ ∃ z, y.absorb? hiddenRowSample = some z := by
  have h : Reachable .syscallThreads hiddenRowSample := reachable_indexed (.hide .empty _)
  obtain ⟨-, -, -, hwrite, -, -, -, hlater⟩ := reachable_laws h
  obtain ⟨y, hy, -, hcell, hlabelled⟩ := hwrite (.labelled "fl" "96") 99 7
  have happly : hiddenRowSample.apply? (.write (.labelled "fl" "96") 99 7) = some y := hy
  obtain ⟨-, -, -, -, -, -, habsorb, -⟩ := reachable_laws (h.apply _ happly)
  obtain ⟨z, hz, -⟩ := habsorb _ h
  refine ⟨h, y, hy, (hcell _ 14).trans (if_pos ⟨rfl, rfl⟩), ?_, ?_, z, hz⟩
  · rw [hlabelled (by decide) _ 6 (by decide)]
    rfl
  · exact hlater y (.apply .refl _ happly) _ 0 (by decide)

end Indexed

end BenchLog
