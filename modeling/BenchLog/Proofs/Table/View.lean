import BenchLog.Proofs.Table.Rows
import BenchLog.Table.Matrix
import Mathlib.Data.List.Nodup

/-!
# `BenchLog.Proofs.Table.View` — what a matrix shows

A matrix is known by three things: the keys of its rows in order, which of them are visible, and what its
cells hold. The operations are described by what they do to these three, each on its own terms: the keys
only ever grow at the end, the visibility of a row changes by `hide` alone, and a cell changes by `write`
alone. Two well-formed matrices over one axis that show the same are the same (`Matrix.ext_view`).

## Contents
- `Matrix.keys`, `Matrix.visible?`, beside `Matrix.get?`; `Matrix.outline`, keys and visibility as a list;
- `Matrix.addKey`, how keys grow;
- `Matrix.WellFormed`, one row per key and every row as wide as the axis, kept by every operation;
- the laws of `ensure`, `write` and `hide`; `Matrix.ext_view`;
- `ensure_of_mem`, `hide_of_hidden`, where an operation has nothing to do.
-/

namespace BenchLog

namespace Matrix

/-- The keys of the rows, in order. -/
def keys (m : Matrix) : List RowKey := m.rows.map (·.key)

/-- Whether the row of a key is visible, if there is one. -/
def visible? (m : Matrix) (key : RowKey) : Option Bool := (m.row? key).map (·.visible)

/-- The keys of the rows, in order, each with the visibility of its row. -/
def outline (m : Matrix) : List (RowKey × Bool) := m.rows.map fun r => (r.key, r.visible)

/-- A list of keys with one more at its end, unless it is there already. -/
def addKey (keys : List RowKey) (key : RowKey) : List RowKey :=
  if key ∈ keys then keys else keys ++ [key]

theorem mem_addKey {keys : List RowKey} {key k : RowKey} :
    k ∈ addKey keys key ↔ k ∈ keys ∨ k = key := by
  unfold addKey
  split
  · next h => exact ⟨Or.inl, fun hk => hk.elim id fun he => he ▸ h⟩
  · rw [List.mem_append, List.mem_singleton]

theorem nodup_addKey {keys : List RowKey} (h : keys.Nodup) (key : RowKey) :
    (addKey keys key).Nodup := by
  unfold addKey
  split
  · exact h
  · next hmem =>
      refine List.nodup_append.2 ⟨h, List.nodup_singleton _, ?_⟩
      rintro k hk _ hk' rfl
      exact hmem (List.mem_singleton.1 hk' ▸ hk)

/-- One row per key, and as many cells in each row as the axis has buckets. -/
structure WellFormed (axis : Axis) (m : Matrix) : Prop where
  columns_eq : m.columns = axis
  keys_nodup : m.keys.Nodup
  length_cells : ∀ r ∈ m.rows, r.cells.length = axis.width

variable {axis : Axis} {m n : Matrix} {key : RowKey} {change : Row → Row}

/-! ## Looking up a row -/

theorem key_of_row? {r : Row} (h : m.row? key = some r) : r.key = key := by
  simpa using List.find?_some h

theorem mem_of_row? {r : Row} (h : m.row? key = some r) : r ∈ m.rows :=
  List.mem_of_find?_eq_some h

theorem row?_eq_none_iff : m.row? key = none ↔ key ∉ m.keys := by
  simp only [row?, keys, List.find?_eq_none, List.mem_map, not_exists, not_and, decide_eq_true_eq]

theorem visible?_eq_none_iff : m.visible? key = none ↔ key ∉ m.keys := by
  rw [visible?, Option.map_eq_none_iff, row?_eq_none_iff]

theorem WellFormed.empty (axis : Axis) : WellFormed axis (empty axis) :=
  ⟨rfl, List.nodup_nil, fun _ h => absurd h List.not_mem_nil⟩

/-- The row that stands under a key is the one that a look-up finds. -/
theorem WellFormed.row?_key (h : WellFormed axis m) {r : Row} (hr : r ∈ m.rows) :
    m.row? r.key = some r := by
  cases hrow : m.row? r.key with
  | none => exact absurd (List.mem_map_of_mem hr) (row?_eq_none_iff.1 hrow)
  | some s =>
      have hkey : s.key = r.key := key_of_row? hrow
      exact congrArg some (List.inj_on_of_nodup_map h.keys_nodup (mem_of_row? hrow) hr hkey)

/-! ## A change to one row -/

theorem row?_alter (hkey : ∀ r, (change r).key = r.key) (k : RowKey) :
    (m.alter key change).row? k
      = if k = key then some (change ((m.row? k).getD (.blank m.columns.width key)))
        else m.row? k :=
  find?_upsert hkey k

theorem keys_alter (hkey : ∀ r, (change r).key = r.key) :
    (m.alter key change).keys = addKey m.keys key :=
  map_upsert hkey

theorem outline_alter (hkey : ∀ r, (change r).key = r.key)
    (hvisible : ∀ r, (change r).visible = r.visible) :
    (m.alter key change).outline
      = if key ∈ m.keys then m.outline else m.outline ++ [(key, true)] :=
  map_upsert fun r => by rw [hkey, hvisible]

theorem WellFormed.alter (h : WellFormed axis m) (hkey : ∀ r, (change r).key = r.key)
    (hlength : ∀ r, (change r).cells.length = r.cells.length) :
    WellFormed axis (m.alter key change) where
  columns_eq := h.columns_eq
  keys_nodup := by
    rw [keys_alter hkey]
    exact nodup_addKey h.keys_nodup key
  length_cells := by
    intro r hr
    rcases mem_upsert hr with hold | rfl | ⟨s, hs, rfl⟩
    · exact h.length_cells r hold
    · rw [hlength, Row.blank, List.length_replicate, h.columns_eq]
    · rw [hlength]; exact h.length_cells s hs

theorem visible?_alter (hkey : ∀ r, (change r).key = r.key)
    (hvisible : ∀ r, (change r).visible = r.visible) (k : RowKey) :
    (m.alter key change).visible? k
      = if k = key then some ((m.visible? k).getD true) else m.visible? k := by
  rw [visible?, row?_alter hkey]
  by_cases hk : k = key
  · rw [if_pos hk, if_pos hk, Option.map_some, hvisible, visible?]
    cases m.row? k <;> rfl
  · rw [if_neg hk, if_neg hk, visible?]

/-- A change that leaves the cells of every row alone changes no cell of the matrix. -/
theorem get?_alter (hkey : ∀ r, (change r).key = r.key)
    (hcell : ∀ r b, (change r).cell? b = r.cell? b) (k : RowKey) (b : Nat) :
    (m.alter key change).get? k b = m.get? k b := by
  rw [get?, get?, row?_alter hkey]
  by_cases hk : k = key
  · rw [if_pos hk, Option.bind_some, hcell]
    cases m.row? k with
    | none => exact Row.cell?_blank _ _ _
    | some r => rfl
  · rw [if_neg hk]

/-! ## Making sure of a row -/

theorem keys_ensure : (m.ensure key).keys = addKey m.keys key := keys_alter fun _ => rfl

theorem visible?_ensure (k : RowKey) :
    (m.ensure key).visible? k
      = if k = key then some ((m.visible? k).getD true) else m.visible? k :=
  visible?_alter (fun _ => rfl) (fun _ => rfl) k

theorem get?_ensure (k : RowKey) (b : Nat) : (m.ensure key).get? k b = m.get? k b :=
  get?_alter (fun _ => rfl) (fun _ _ => rfl) k b

theorem WellFormed.ensure (h : WellFormed axis m) (key : RowKey) :
    WellFormed axis (m.ensure key) :=
  h.alter (fun _ => rfl) fun _ => rfl

/-! ## Hiding a row -/

theorem keys_hide : (m.hide key).keys = addKey m.keys key := keys_alter Row.key_hide

theorem visible?_hide (k : RowKey) :
    (m.hide key).visible? k = if k = key then some false else m.visible? k := by
  rw [visible?, hide, row?_alter Row.key_hide]
  by_cases hk : k = key
  · rw [if_pos hk, if_pos hk]
    rfl
  · rw [if_neg hk, if_neg hk, visible?]

theorem get?_hide (k : RowKey) (b : Nat) : (m.hide key).get? k b = m.get? k b :=
  get?_alter Row.key_hide Row.cell?_hide k b

theorem WellFormed.hide (h : WellFormed axis m) (key : RowKey) : WellFormed axis (m.hide key) :=
  h.alter Row.key_hide fun _ => rfl

/-! ## Writing a cell -/

variable {bucket : Nat} {value : UInt64}

theorem keys_write : (m.write key bucket value).keys = addKey m.keys key :=
  keys_alter (Row.key_write _ _)

theorem outline_write :
    (m.write key bucket value).outline
      = if key ∈ m.keys then m.outline else m.outline ++ [(key, true)] :=
  outline_alter (Row.key_write _ _) (Row.visible_write _ _)

theorem visible?_write (k : RowKey) :
    (m.write key bucket value).visible? k
      = if k = key then some ((m.visible? k).getD true) else m.visible? k :=
  visible?_alter (Row.key_write _ _) (Row.visible_write _ _) k

theorem WellFormed.write (h : WellFormed axis m) (key : RowKey) (bucket : Nat) (value : UInt64) :
    WellFormed axis (m.write key bucket value) :=
  h.alter (Row.key_write _ _) fun _ => List.length_set

/-- A write reaches the cell it names, a bucket past the axis being the unmapped one, and no other. -/
theorem WellFormed.get?_write (h : WellFormed axis m) (k : RowKey) (b : Nat) :
    (m.write key bucket value).get? k b
      = if k = key ∧ b = min bucket axis.unmapped then some value else m.get? k b := by
  rw [get?, Matrix.write, row?_alter (Row.key_write _ _), h.columns_eq]
  by_cases hk : k = key
  · have hwidth : ∀ r : Row, r.cells.length = axis.width →
        min bucket axis.unmapped < r.cells.length := by
      intro r hr
      rw [hr, Axis.width, Axis.unmapped]
      omega
    subst hk
    rw [if_pos rfl, Option.bind_some]
    cases hrow : m.row? k with
    | none =>
        rw [Option.getD_none, Row.cell?_write (hwidth _ List.length_replicate), Row.cell?_blank, get?,
          hrow]
        by_cases hb : b = min bucket axis.unmapped <;> simp [hb]
    | some r =>
        have hr := h.length_cells r (mem_of_row? hrow)
        rw [Option.getD_some, Row.cell?_write (hwidth r hr), get?, hrow]
        by_cases hb : b = min bucket axis.unmapped <;> simp [hb]
  · rw [if_neg hk, if_neg fun hc => hk hc.1, get?]

/-! ## Matrices that show the same -/

/-- Two well-formed matrices over one axis are the same if they show the same keys in the same order,
    the same visibility and the same cells. -/
theorem ext_view (hm : WellFormed axis m) (hn : WellFormed axis n) (hkeys : m.keys = n.keys)
    (hvisible : ∀ k, m.visible? k = n.visible? k) (hcell : ∀ k b, m.get? k b = n.get? k b) :
    m = n := by
  -- Rows of one key are the same, since each is the row that a look-up finds.
  have hrow : ∀ r ∈ m.rows, ∀ s ∈ n.rows, r.key = s.key → r = s := by
    intro r hr s hs hkey
    have hrm := hm.row?_key hr
    have hsn := hn.row?_key hs
    rw [← hkey] at hsn
    refine Row.ext_cells hkey ?_ ?_ fun b => ?_
    · simpa only [visible?, hrm, hsn, Option.map_some, Option.some.injEq] using hvisible r.key
    · rw [hm.length_cells r hr, hn.length_cells s hs]
    · simpa only [get?, hrm, hsn, Option.bind_some] using hcell r.key b
  have hrows : m.rows = n.rows := by
    have hlength : m.rows.length = n.rows.length := by
      simpa only [keys, List.length_map] using congrArg List.length hkeys
    refine List.ext_getElem hlength fun i hi hi' => ?_
    refine hrow _ (List.getElem_mem hi) _ (List.getElem_mem hi') ?_
    have := List.getElem_of_eq hkeys (i := i) (by simpa [keys] using hi)
    simpa only [keys, List.getElem_map] using this
  obtain ⟨columns, rows⟩ := m
  obtain ⟨columns', rows'⟩ := n
  obtain rfl : columns = columns' := hm.columns_eq.trans hn.columns_eq.symm
  obtain rfl : rows = rows' := hrows
  rfl

theorem WellFormed.ensure_of_mem (h : WellFormed axis m) (hkey : key ∈ m.keys) :
    m.ensure key = m := by
  refine ext_view (h.ensure key) h ?_ (fun k => ?_) fun k b => get?_ensure k b
  · rw [keys_ensure, addKey, if_pos hkey]
  · rw [visible?_ensure]
    split
    · next hk =>
        subst hk
        cases hv : m.visible? k with
        | none => exact absurd hkey (visible?_eq_none_iff.1 hv)
        | some visible => rfl
    · rfl

theorem WellFormed.hide_of_hidden (h : WellFormed axis m) (hkey : m.visible? key = some false) :
    m.hide key = m := by
  refine ext_view (h.hide key) h ?_ (fun k => ?_) fun k b => get?_hide k b
  · have hmem : key ∈ m.keys := by
      refine Decidable.byContradiction fun hnot => ?_
      rw [visible?_eq_none_iff.2 hnot] at hkey
      cases hkey
    rw [keys_hide, addKey, if_pos hmem]
  · rw [visible?_hide]
    split
    · next hk => rw [hk, hkey]
    · rfl

end Matrix

end BenchLog
