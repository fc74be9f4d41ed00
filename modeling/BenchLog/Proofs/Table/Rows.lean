import BenchLog.Table.Row

/-!
# `BenchLog.Proofs.Table.Rows` — what a change does to rows

Everything a table does to its rows is a change to the row of one key, made by `upsert`. The laws here say
what such a change shows: which row is found under a key, what the list of rows looks like from a point of
view that the change leaves alone, and, for one row, what its cells hold.

## Contents
- `Row.cell?` after `blank`, `write`, `hide` and `overlay`, and `Row.ext_cells`;
- `find?_upsert`, `map_upsert`, `map_upsert_comm`, `upsert_of_not_mem`, `upsert_of_findIdx?`,
  `upsert_congr_fresh`, `upsert_upsert_id`, `mem_upsert`.
-/

namespace BenchLog

namespace Row

/-! ## What operations leave alone -/

theorem key_write (bucket : Nat) (value : UInt64) (r : Row) : (r.write bucket value).key = r.key := rfl

theorem visible_write (bucket : Nat) (value : UInt64) (r : Row) :
    (r.write bucket value).visible = r.visible := rfl

theorem key_hide (r : Row) : r.hide.key = r.key := rfl

theorem key_overlay (other r : Row) : (overlay other r).key = r.key := rfl

theorem visible_overlay (other r : Row) : (overlay other r).visible = r.visible := rfl

/-! ## The cells of one row -/

theorem cell?_blank (width : Nat) (key : RowKey) (b : Nat) : (blank width key).cell? b = none := by
  simp only [cell?, blank, List.getElem?_replicate]
  split <;> rfl

theorem cell?_write {r : Row} {bucket : Nat} (h : bucket < r.cells.length) (value : UInt64)
    (b : Nat) : (r.write bucket value).cell? b = if b = bucket then some value else r.cell? b := by
  simp only [cell?, write, List.getElem?_set]
  by_cases hb : bucket = b
  · subst hb
    simp [h]
  · rw [if_neg hb, if_neg (Ne.symm hb)]

theorem cell?_hide (r : Row) (b : Nat) : r.hide.cell? b = r.cell? b := rfl

theorem length_overlayCells (olds news : List (Option UInt64)) :
    (overlayCells olds news).length = olds.length := by
  fun_induction overlayCells olds news with
  | case1 => rfl
  | case2 => rfl
  | case3 old olds new news ih => rw [List.length_cons, List.length_cons, ih]

theorem getElem?_overlayCells {olds news : List (Option UInt64)}
    (h : news.length ≤ olds.length) (b : Nat) :
    (overlayCells olds news)[b]?.join = (news[b]?.join).or olds[b]?.join := by
  fun_induction overlayCells olds news generalizing b with
  | case1 news =>
      obtain rfl := List.eq_nil_of_length_eq_zero (Nat.le_zero.1 h)
      rfl
  | case2 => rfl
  | case3 old olds new news ih =>
      cases b with
      | zero => rfl
      | succ b => exact ih (Nat.le_of_succ_le_succ h) b

theorem cell?_overlay {other r : Row} (h : other.cells.length ≤ r.cells.length) (b : Nat) :
    (overlay other r).cell? b = (other.cell? b).or (r.cell? b) :=
  getElem?_overlayCells h b

/-- Rows of one width are told apart by their key, their visibility and their cells. -/
theorem ext_cells {r s : Row} (hkey : r.key = s.key) (hvisible : r.visible = s.visible)
    (hlength : r.cells.length = s.cells.length) (hcell : ∀ b, r.cell? b = s.cell? b) : r = s := by
  obtain ⟨key, cells, visible⟩ := r
  obtain ⟨key', cells', visible'⟩ := s
  obtain rfl : key = key' := hkey
  obtain rfl : visible = visible' := hvisible
  congr 1
  refine List.ext_getElem hlength fun b hb hb' => ?_
  have := hcell b
  simpa only [cell?, List.getElem?_eq_getElem hb, List.getElem?_eq_getElem hb',
    Option.join_some] using this

end Row

/-! ## A change to the row of one key -/

section Upsert

variable {change : Row → Row} {fresh : Row} {rows : List Row}

/-- Only the row of the key is changed; without one, the fresh row is. -/
theorem find?_upsert (hkey : ∀ r, (change r).key = r.key) (key : RowKey) :
    (upsert change fresh rows).find? (·.key = key)
      = if key = fresh.key then some (change ((rows.find? (·.key = key)).getD fresh))
        else rows.find? (·.key = key) := by
  induction rows with
  | nil =>
      rw [upsert, List.find?_singleton, hkey]
      by_cases h : key = fresh.key
      · simp [h]
      · simp [h, Ne.symm h]
  | cons r rows ih =>
      rw [upsert]
      by_cases hr : r.key = fresh.key
      · rw [if_pos hr, List.find?_cons, List.find?_cons, hkey, hr]
        by_cases h : fresh.key = key
        · simp [h]
        · simp [h, Ne.symm h]
      · rw [if_neg hr, List.find?_cons, List.find?_cons, ih]
        by_cases h : r.key = key
        · simp [h, h ▸ hr]
        · simp [h]

/-- From a point of view that the change leaves alone, the rows stay as they are or gain one. -/
theorem map_upsert {α : Type} {view : Row → α} (hview : ∀ r, view (change r) = view r) :
    (upsert change fresh rows).map view
      = if fresh.key ∈ rows.map (·.key) then rows.map view else rows.map view ++ [view fresh] := by
  induction rows with
  | nil => simp [upsert, hview]
  | cons r rows ih =>
      rw [upsert]
      by_cases hr : r.key = fresh.key
      · simp [hr, hview]
      · rw [if_neg hr, List.map_cons, ih]
        have hhead : fresh.key ∈ (r :: rows).map (·.key) ↔ fresh.key ∈ rows.map (·.key) := by
          rw [List.map_cons, List.mem_cons, or_iff_right (Ne.symm hr)]
        by_cases hmem : fresh.key ∈ rows.map (·.key)
        · rw [if_pos hmem, if_pos (hhead.2 hmem), List.map_cons]
        · rw [if_neg hmem, if_neg (mt hhead.1 hmem), List.map_cons, List.cons_append]

/-- A change can be made after an image of the rows is taken, if the image keeps keys and the change has
    its like there. -/
theorem map_upsert_comm {image change' : Row → Row} (hkey : ∀ r, (image r).key = r.key)
    (hchange : ∀ r, image (change r) = change' (image r)) (fresh : Row) (rows : List Row) :
    (upsert change fresh rows).map image = upsert change' (image fresh) (rows.map image) := by
  induction rows with
  | nil => simp only [upsert, List.map_cons, List.map_nil, hchange]
  | cons r rows ih =>
      rw [upsert, List.map_cons, upsert, hkey, hkey]
      by_cases hr : r.key = fresh.key
      · rw [if_pos hr, if_pos hr, List.map_cons, hchange]
      · rw [if_neg hr, if_neg hr, List.map_cons, ih]

/-- Without a row of the key the fresh row is put last, as the change makes it. -/
theorem upsert_of_not_mem (h : fresh.key ∉ rows.map (·.key)) :
    upsert change fresh rows = rows ++ [change fresh] := by
  induction rows with
  | nil => rfl
  | cons r rows ih =>
      rw [List.map_cons, List.mem_cons, not_or] at h
      rw [upsert, if_neg (Ne.symm h.1), ih h.2, List.cons_append]

/-- Where there is a row of the key, the first one is changed in its place. -/
theorem upsert_of_findIdx? {i : Nat} {r : Row} (hi : rows.findIdx? (·.key = fresh.key) = some i)
    (hr : rows[i]? = some r) : upsert change fresh rows = rows.set i (change r) := by
  induction rows generalizing i with
  | nil => exact nomatch hr
  | cons s rows ih =>
      rw [List.findIdx?_cons] at hi
      rw [upsert]
      by_cases hs : s.key = fresh.key
      · rw [if_pos (decide_eq_true hs)] at hi
        obtain rfl : 0 = i := Option.some.inj hi
        obtain rfl : s = r := Option.some.inj hr
        rw [if_pos hs, List.set_cons_zero]
      · rw [if_neg (by simpa using hs)] at hi
        obtain ⟨j, hj, rfl⟩ := Option.map_eq_some_iff.1 hi
        rw [if_neg hs, ih hj hr, List.set_cons_succ]

/-- Where there is a row of the key, the fresh row does not matter. -/
theorem upsert_congr_fresh {fresh' : Row} (hmem : fresh.key ∈ rows.map (·.key))
    (hkey : fresh.key = fresh'.key) : upsert change fresh rows = upsert change fresh' rows := by
  induction rows with
  | nil => exact nomatch hmem
  | cons r rows ih =>
      rw [upsert, upsert, ← hkey]
      by_cases hr : r.key = fresh.key
      · rw [if_pos hr, if_pos hr]
      · rw [List.map_cons, List.mem_cons, or_iff_right (Ne.symm hr)] at hmem
        rw [if_neg hr, if_neg hr, ih hmem]

/-- A change after the row has been put there is the change itself. -/
theorem upsert_upsert_id (change : Row → Row) (fresh : Row) (rows : List Row) :
    upsert change fresh (upsert id fresh rows) = upsert change fresh rows := by
  induction rows with
  | nil => simp [upsert]
  | cons r rows ih =>
      by_cases hr : r.key = fresh.key
      · simp [upsert, hr]
      · simp only [upsert, if_neg hr, ih]

theorem mem_upsert {r : Row} (h : r ∈ upsert change fresh rows) :
    r ∈ rows ∨ r = change fresh ∨ ∃ s ∈ rows, r = change s := by
  induction rows with
  | nil => exact Or.inr (Or.inl (List.mem_singleton.1 h))
  | cons s rows ih =>
      rw [upsert] at h
      by_cases hs : s.key = fresh.key
      · rw [if_pos hs] at h
        rcases List.mem_cons.1 h with rfl | hr
        · exact Or.inr (Or.inr ⟨s, List.mem_cons_self, rfl⟩)
        · exact Or.inl (List.mem_cons_of_mem _ hr)
      · rw [if_neg hs] at h
        rcases List.mem_cons.1 h with rfl | hr
        · exact Or.inl List.mem_cons_self
        · rcases ih hr with hold | hfresh | ⟨t, ht, rfl⟩
          · exact Or.inl (List.mem_cons_of_mem _ hold)
          · exact Or.inr (Or.inl hfresh)
          · exact Or.inr (Or.inr ⟨t, List.mem_cons_of_mem _ ht, rfl⟩)

end Upsert

end BenchLog
