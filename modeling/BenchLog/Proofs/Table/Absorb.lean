import BenchLog.Proofs.Table.View
import BenchLog.Table.Pair

/-!
# `BenchLog.Proofs.Table.Absorb` — one matrix laid over another

`absorb` goes through the rows of the other matrix one by one. What comes out follows three rules, one for
each thing that a matrix shows: new keys follow the known ones, the visibility of a known row stays, and a
written cell of the other matrix covers. From these rules it follows that an operation may be done before
or after laying a matrix over another, so that laying over is the same as doing all operations of the other
matrix over again. Only `hide` asks for something in return: the row must not be visible below.

## Contents
- `Matrix.keys_absorb`, `Matrix.visible?_absorb`, `Matrix.get?_absorb`: the three rules;
- `Matrix.absorb_ensure`, `Matrix.absorb_write`, `Matrix.absorb_hide`: an operation before or after;
- `Matrix.absorb_assoc`, `Matrix.empty_absorb`, `Matrix.absorb_self`: laying over as an operation;
- `Matrix.Reachable`, what operations make of the empty matrix, all of it well-formed;
- the same for `Tables`, the pair of matrices.
-/

namespace BenchLog

namespace Matrix

variable {axis : Axis} {m other : Matrix} {key : RowKey}

/-! ## One row -/

theorem keys_absorbRow (r : Row) : (m.absorbRow r).keys = addKey m.keys r.key :=
  map_upsert (Row.key_overlay r)

theorem row?_absorbRow (r : Row) (k : RowKey) :
    (m.absorbRow r).row? k
      = if k = r.key then
          some (Row.overlay r ((m.row? k).getD
            { Row.blank m.columns.width r.key with visible := r.visible }))
        else m.row? k :=
  find?_upsert (Row.key_overlay r) k

theorem visible?_absorbRow (r : Row) (k : RowKey) :
    (m.absorbRow r).visible? k
      = if k = r.key then some ((m.visible? k).getD r.visible) else m.visible? k := by
  rw [visible?, row?_absorbRow]
  by_cases hk : k = r.key
  · rw [if_pos hk, if_pos hk, Option.map_some, Row.visible_overlay, visible?]
    cases m.row? k <;> rfl
  · rw [if_neg hk, if_neg hk, visible?]

theorem WellFormed.get?_absorbRow (h : WellFormed axis m) {r : Row}
    (hr : r.cells.length = axis.width) (k : RowKey) (b : Nat) :
    (m.absorbRow r).get? k b
      = if k = r.key then (r.cell? b).or (m.get? k b) else m.get? k b := by
  rw [get?, row?_absorbRow, get?]
  by_cases hk : k = r.key
  · rw [if_pos hk, if_pos hk, Option.bind_some]
    cases hrow : m.row? k with
    | none =>
        rw [Option.getD_none, Row.cell?_overlay (by simp [Row.blank, hr, h.columns_eq])]
        exact congrArg _ (Row.cell?_blank m.columns.width r.key b)
    | some s =>
        have hs := h.length_cells s (mem_of_row? hrow)
        rw [Option.getD_some, Row.cell?_overlay (by omega), Option.bind_some]
  · rw [if_neg hk, if_neg hk]

theorem WellFormed.absorbRow (h : WellFormed axis m) (r : Row) : WellFormed axis (m.absorbRow r) where
  columns_eq := h.columns_eq
  keys_nodup := by
    rw [keys_absorbRow]
    exact nodup_addKey h.keys_nodup r.key
  length_cells := by
    intro s hs
    rcases mem_upsert hs with hold | rfl | ⟨t, ht, rfl⟩
    · exact h.length_cells s hold
    · simp [Row.overlay, Row.length_overlayCells, Row.blank, h.columns_eq]
    · rw [Row.overlay, Row.length_overlayCells]
      exact h.length_cells t ht

/-! ## All rows -/

theorem WellFormed.foldl_absorbRow (h : WellFormed axis m) (rows : List Row) :
    WellFormed axis (rows.foldl Matrix.absorbRow m) := by
  induction rows generalizing m with
  | nil => exact h
  | cons r rows ih => exact ih (h.absorbRow r)

theorem keys_foldl_absorbRow {rows : List Row} (hnodup : (rows.map (·.key)).Nodup) :
    (rows.foldl absorbRow m).keys = m.keys ++ (rows.map (·.key)).filter (· ∉ m.keys) := by
  induction rows generalizing m with
  | nil => simp
  | cons r rows ih =>
      rw [List.map_cons, List.nodup_cons] at hnodup
      obtain ⟨hr, hrows⟩ := hnodup
      rw [List.foldl_cons, ih hrows, keys_absorbRow, List.map_cons, addKey]
      by_cases hmem : r.key ∈ m.keys
      · rw [if_pos hmem, List.filter_cons_of_neg (by simpa using hmem)]
      · rw [if_neg hmem, List.filter_cons_of_pos (by simpa using hmem), List.append_assoc,
          List.singleton_append]
        congr 2
        refine List.filter_congr fun k hk => ?_
        have hne : k ≠ r.key := fun he => hr (he ▸ hk)
        simp [hne]

theorem visible?_foldl_absorbRow (rows : List Row) (k : RowKey) :
    (rows.foldl absorbRow m).visible? k
      = (m.visible? k).or ((rows.find? (·.key = k)).map (·.visible)) := by
  induction rows generalizing m with
  | nil => simp
  | cons r rows ih =>
      rw [List.foldl_cons, ih, visible?_absorbRow, List.find?_cons]
      by_cases hk : k = r.key
      · subst hk
        cases m.visible? r.key <;> simp
      · simp [hk, Ne.symm hk]

theorem WellFormed.get?_foldl_absorbRow (h : WellFormed axis m) {rows : List Row}
    (hnodup : (rows.map (·.key)).Nodup) (hlength : ∀ r ∈ rows, r.cells.length = axis.width)
    (k : RowKey) (b : Nat) :
    (rows.foldl Matrix.absorbRow m).get? k b
      = ((rows.find? (·.key = k)).bind (·.cell? b)).or (m.get? k b) := by
  induction rows generalizing m with
  | nil => simp
  | cons r rows ih =>
      rw [List.map_cons, List.nodup_cons] at hnodup
      obtain ⟨hr, hrows⟩ := hnodup
      obtain ⟨hlen, hlens⟩ := List.forall_mem_cons.1 hlength
      rw [List.foldl_cons, ih (h.absorbRow r) hrows hlens, h.get?_absorbRow hlen, List.find?_cons]
      by_cases hk : k = r.key
      · subst hk
        have hnone : rows.find? (·.key = r.key) = none := by
          simp only [List.find?_eq_none, decide_eq_true_eq]
          exact fun s hs he => hr (he ▸ List.mem_map_of_mem hs)
        simp [hnone]
      · simp [hk, Ne.symm hk]

theorem WellFormed.absorb (h : WellFormed axis m) (other : Matrix) :
    WellFormed axis (m.absorb other) :=
  h.foldl_absorbRow other.rows

/-- New keys follow the known ones. -/
theorem keys_absorb (hother : other.keys.Nodup) :
    (m.absorb other).keys = m.keys ++ other.keys.filter (· ∉ m.keys) :=
  keys_foldl_absorbRow hother

/-- The visibility of a known row stays. -/
theorem visible?_absorb (k : RowKey) :
    (m.absorb other).visible? k = (m.visible? k).or (other.visible? k) :=
  visible?_foldl_absorbRow other.rows k

/-- A written cell of the other matrix covers. -/
theorem WellFormed.get?_absorb (h : WellFormed axis m) (hother : WellFormed axis other)
    (k : RowKey) (b : Nat) :
    (m.absorb other).get? k b = (other.get? k b).or (m.get? k b) :=
  h.get?_foldl_absorbRow hother.keys_nodup hother.length_cells k b

/-! ## An operation before or after -/

/-- A key that the other matrix gains comes last here as well. -/
theorem append_filter_addKey (ks others : List RowKey) (key : RowKey) :
    ks ++ (addKey others key).filter (· ∉ ks) = addKey (ks ++ others.filter (· ∉ ks)) key := by
  unfold addKey
  by_cases hother : key ∈ others
  · have hmem : key ∈ ks ++ others.filter (· ∉ ks) := by
      rw [List.mem_append, List.mem_filter, decide_eq_true_eq]
      by_cases hk : key ∈ ks <;> simp [hk, hother]
    rw [if_pos hother, if_pos hmem]
  · rw [if_neg hother, List.filter_append]
    by_cases hk : key ∈ ks
    · rw [if_pos (List.mem_append_left _ hk), List.filter_cons_of_neg (by simpa using hk),
        List.filter_nil, List.append_nil]
    · rw [if_neg, List.filter_cons_of_pos (by simpa using hk), List.filter_nil, List.append_assoc]
      simp [hk, hother]

theorem absorb_ensure (hm : WellFormed axis m) (hother : WellFormed axis other) (key : RowKey) :
    m.absorb (other.ensure key) = (m.absorb other).ensure key := by
  refine ext_view (hm.absorb _) ((hm.absorb _).ensure _) ?_ (fun k => ?_) fun k b => ?_
  · rw [keys_absorb (hother.ensure key).keys_nodup, keys_ensure, keys_ensure,
      keys_absorb hother.keys_nodup, append_filter_addKey]
  · rw [visible?_absorb, visible?_ensure, visible?_ensure, visible?_absorb]
    by_cases hk : k = key
    · rw [if_pos hk, if_pos hk]
      cases m.visible? k <;> simp
    · rw [if_neg hk, if_neg hk]
  · rw [hm.get?_absorb (hother.ensure key), get?_ensure, get?_ensure, hm.get?_absorb hother]

theorem absorb_write (hm : WellFormed axis m) (hother : WellFormed axis other) (key : RowKey)
    (bucket : Nat) (value : UInt64) :
    m.absorb (other.write key bucket value) = (m.absorb other).write key bucket value := by
  have hwrite := hother.write key bucket value
  refine ext_view (hm.absorb _) ((hm.absorb _).write _ _ _) ?_ (fun k => ?_) fun k b => ?_
  · rw [keys_absorb hwrite.keys_nodup, keys_write, keys_write, keys_absorb hother.keys_nodup,
      append_filter_addKey]
  · rw [visible?_absorb, visible?_write, visible?_write, visible?_absorb]
    by_cases hk : k = key
    · rw [if_pos hk, if_pos hk]
      cases m.visible? k <;> simp
    · rw [if_neg hk, if_neg hk]
  · rw [hm.get?_absorb hwrite, hother.get?_write, (hm.absorb other).get?_write,
      hm.get?_absorb hother]
    split
    · rw [Option.some_or]
    · rfl

/-- A row that is hidden above comes out hidden only if it is not visible below. -/
theorem absorb_hide (hm : WellFormed axis m) (hother : WellFormed axis other)
    (hkey : m.visible? key ≠ some true) : m.absorb (other.hide key) = (m.absorb other).hide key := by
  refine ext_view (hm.absorb _) ((hm.absorb _).hide _) ?_ (fun k => ?_) fun k b => ?_
  · rw [keys_absorb (hother.hide key).keys_nodup, keys_hide, keys_hide,
      keys_absorb hother.keys_nodup, append_filter_addKey]
  · rw [visible?_absorb, visible?_hide, visible?_hide, visible?_absorb]
    by_cases hk : k = key
    · rw [if_pos hk, if_pos hk, hk]
      cases hv : m.visible? key with
      | none => rfl
      | some visible =>
          cases visible with
          | false => rfl
          | true => exact absurd hv hkey
    · rw [if_neg hk, if_neg hk]
  · rw [hm.get?_absorb (hother.hide key), get?_hide, get?_hide, hm.get?_absorb hother]

/-! ## Three matrices -/

/-- Which keys are new is found out anew on each side, with the same outcome. -/
theorem absorb_assoc {a b c : Matrix} (ha : WellFormed axis a) (hb : WellFormed axis b)
    (hc : WellFormed axis c) : (a.absorb b).absorb c = a.absorb (b.absorb c) := by
  refine ext_view ((ha.absorb b).absorb c) (ha.absorb _) ?_ (fun k => ?_) fun k i => ?_
  · have hnew : ∀ k, k ∉ a.keys ++ b.keys.filter (· ∉ a.keys) ↔ k ∉ a.keys ∧ k ∉ b.keys := by
      intro k
      rw [List.mem_append, List.mem_filter, decide_eq_true_eq]
      tauto
    rw [keys_absorb hc.keys_nodup, keys_absorb hb.keys_nodup,
      keys_absorb (hb.absorb c).keys_nodup, keys_absorb hc.keys_nodup, List.filter_append,
      List.filter_filter, List.append_assoc]
    simp only [hnew, Bool.decide_and]
  · rw [visible?_absorb, visible?_absorb, visible?_absorb, visible?_absorb, Option.or_assoc]
  · rw [(ha.absorb b).get?_absorb hc, ha.get?_absorb hb, ha.get?_absorb (hb.absorb c),
      hb.get?_absorb hc, Option.or_assoc]

theorem absorb_empty (m : Matrix) (axis : Axis) : m.absorb (empty axis) = m := rfl

theorem empty_absorb (hm : WellFormed axis m) : (empty axis).absorb m = m := by
  refine ext_view ((WellFormed.empty axis).absorb m) hm ?_ (fun k => visible?_absorb k) fun k b => ?_
  · rw [keys_absorb hm.keys_nodup]
    exact List.filter_eq_self.2 fun k _ => decide_eq_true List.not_mem_nil
  · rw [(WellFormed.empty axis).get?_absorb hm]
    exact Option.or_none

theorem absorb_self (hm : WellFormed axis m) : m.absorb m = m := by
  refine ext_view (hm.absorb m) hm ?_ (fun k => ?_) fun k b => ?_
  · have hnew : m.keys.filter (· ∉ m.keys) = [] :=
      List.filter_eq_nil_iff.2 fun k hk => by simpa using hk
    rw [keys_absorb hm.keys_nodup, hnew, List.append_nil]
  · rw [visible?_absorb, Option.or_self]
  · rw [hm.get?_absorb hm, Option.or_self]

/-! ## All matrices that operations make -/

/-- The matrices over an axis that can be made from the empty one. -/
inductive Reachable (axis : Axis) : Matrix → Prop where
  | empty : Reachable axis (empty axis)
  | ensure {m : Matrix} (h : Reachable axis m) (key : RowKey) : Reachable axis (m.ensure key)
  | write {m : Matrix} (h : Reachable axis m) (key : RowKey) (bucket : Nat) (value : UInt64) :
      Reachable axis (m.write key bucket value)
  | hide {m : Matrix} (h : Reachable axis m) (key : RowKey) : Reachable axis (m.hide key)
  | absorb {m other : Matrix} (h : Reachable axis m) (hother : Reachable axis other) :
      Reachable axis (m.absorb other)

theorem Reachable.wellFormed (h : Reachable axis m) : WellFormed axis m := by
  induction h with
  | empty => exact .empty axis
  | ensure _ key ih => exact ih.ensure key
  | write _ key bucket value ih => exact ih.write key bucket value
  | hide _ key ih => exact ih.hide key
  | absorb _ _ ih _ => exact ih.absorb _

end Matrix

/-! ## The pair of matrices -/

namespace Tables

/-- Both matrices are well-formed over one axis. -/
structure WellFormed (axis : Axis) (t : Tables) : Prop where
  values : t.values.WellFormed axis
  missed : t.missed.WellFormed axis

variable {axis : Axis} {t other : Tables}

theorem WellFormed.empty (axis : Axis) : WellFormed axis (empty axis) := ⟨.empty axis, .empty axis⟩

theorem WellFormed.record (h : WellFormed axis t) (key : RowKey) (bucket : Nat)
    (value missed : UInt64) : WellFormed axis (t.record key bucket value missed) :=
  ⟨h.values.write key bucket value, h.missed.write key bucket missed⟩

theorem absorb_empty (t : Tables) (axis : Axis) : t.absorb (empty axis) = t := rfl

theorem absorb_record (ht : WellFormed axis t) (hother : WellFormed axis other) (key : RowKey)
    (bucket : Nat) (value missed : UInt64) :
    t.absorb (other.record key bucket value missed)
      = (t.absorb other).record key bucket value missed := by
  simp only [absorb, record, Matrix.absorb_write ht.values hother.values,
    Matrix.absorb_write ht.missed hother.missed]

end Tables

end BenchLog
