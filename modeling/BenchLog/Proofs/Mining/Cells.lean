import BenchLog.Proofs.Mining.Declare

/-!
# `BenchLog.Proofs.Mining.Cells` — tables after a log, cell by cell

The tables after a log are given in closed form. A cell holds what the last entry that names it brought, or
what it held before; rows are there in the order in which their keys were first named, those from before
the log ahead of the new ones; and no entry hides a row or shows a hidden one.

## Contents
- `lastAt`, the last entry for a cell, and `Matrix.get?_foldl_write`;
- `newKeys`, the keys that entries add, and `Matrix.outline_foldl_write`;
- `Miner.wellFormed_runAll`, every table that a miner reaches is well-formed;
- `Miner.tables_run_closed_form`, the tables after one more log.
-/

namespace BenchLog

/-- The last entry for a cell. -/
def lastAt (es : List Entry) (key : RowKey) (bucket : Nat) : Option Entry :=
  es.reverse.find? fun e => e.row = key ∧ e.bucket = bucket

theorem lastAt_cons (e : Entry) (es : List Entry) (key : RowKey) (bucket : Nat) :
    lastAt (e :: es) key bucket
      = (lastAt es key bucket).or (if e.row = key ∧ e.bucket = bucket then some e else none) := by
  rw [lastAt, List.reverse_cons, List.find?_append, List.find?_singleton, lastAt]
  simp only [decide_eq_true_eq]

/-- The keys that are not known yet, each once, in the order of their first occurrence. -/
def newKeys (known keys : List RowKey) : List RowKey := (keys.filter (· ∉ known)).eraseDups

theorem newKeys_cons_of_mem {known : List RowKey} {key : RowKey} (h : key ∈ known)
    (keys : List RowKey) : newKeys known (key :: keys) = newKeys known keys := by
  rw [newKeys, newKeys, List.filter_cons_of_neg (by simpa using h)]

theorem newKeys_cons_of_not_mem {known : List RowKey} {key : RowKey} (h : key ∉ known)
    (keys : List RowKey) :
    newKeys known (key :: keys) = key :: newKeys (known ++ [key]) keys := by
  rw [newKeys, newKeys, List.filter_cons_of_pos (by simpa using h), List.eraseDups_cons,
    List.filter_filter]
  refine congrArg (key :: List.eraseDups ·) (List.filter_congr fun k _ => ?_)
  by_cases hk : k = key <;> simp [hk]

namespace Matrix

variable {axis : Axis} {m : Matrix} {value : Entry → UInt64}

/-- After any number of writes a cell holds what the last of them for it brought, or what it held. -/
theorem WellFormed.get?_foldl_write (h : WellFormed axis m) {es : List Entry}
    (hbucket : ∀ e ∈ es, e.bucket ≤ axis.unmapped) (k : RowKey) (b : Nat) :
    (es.foldl (fun m e => m.write e.row e.bucket (value e)) m).get? k b
      = ((lastAt es k b).map value).or (m.get? k b) := by
  induction es generalizing m with
  | nil => rfl
  | cons e es ih =>
      -- The bucket of an entry is within the axis, so that the write lands where the entry says.
      obtain ⟨he, hes⟩ := List.forall_mem_cons.1 hbucket
      have hcell : e.row = k ∧ e.bucket = b ↔ k = e.row ∧ b = min e.bucket axis.unmapped := by
        rw [Nat.min_eq_left he]
        exact and_congr eq_comm eq_comm
      rw [List.foldl_cons, ih (h.write _ _ _) hes, h.get?_write, lastAt_cons]
      cases lastAt es k b with
      | some last => rfl
      | none =>
          by_cases hc : k = e.row ∧ b = min e.bucket axis.unmapped
          · rw [if_pos hc, if_pos (hcell.2 hc)]
            rfl
          · rw [if_neg hc, if_neg (mt hcell.1 hc)]
            rfl

/-- Writes leave the rows that are there in place and as visible as they are, and add visible ones. -/
theorem outline_foldl_write (m : Matrix) (es : List Entry) :
    (es.foldl (fun m e => m.write e.row e.bucket (value e)) m).outline
      = m.outline ++ (newKeys m.keys (es.map Entry.row)).map fun key => (key, true) := by
  induction es generalizing m with
  | nil => simp [newKeys]
  | cons e es ih =>
      rw [List.foldl_cons, ih, outline_write, keys_write, addKey, List.map_cons]
      by_cases hmem : e.row ∈ m.keys
      · rw [if_pos hmem, if_pos hmem, newKeys_cons_of_mem hmem]
      · rw [if_neg hmem, if_neg hmem, newKeys_cons_of_not_mem hmem, List.append_assoc, List.map_cons,
          List.singleton_append]

end Matrix

/-! ## Every table of a miner is well-formed -/

theorem Variant.wellFormed_freshTables (v : Variant) (set : String) :
    (v.freshTables set).WellFormed v.columns := by
  rw [freshTables_eq_declare]
  exact wellFormed_declare (.empty _) set

theorem Miner.wellFormed_runAll {m : Miner} (h : m.tables.WellFormed m.variant.columns)
    (logs : List (List String)) : (m.runAll logs).tables.WellFormed m.variant.columns := by
  induction logs generalizing m with
  | nil => exact h
  | cons log logs ih =>
      refine ih (m := (m.run log).1) ?_
      rw [tables_run]
      exact h.foldl_put _

/-! ## Tables after a log -/

/-- **Last write wins, rows come in first-seen order, skipped sections leave no trace.** Take a miner that
    was made for `set` and has mined any logs, and one more log. Each section of the log has one outcome.
    In both matrices a cell then holds what the last entry for it brought, zeros from a degenerate section
    included, and what it held before if there is none; and the rows are those from before, in place and as
    visible as they were, followed by visible ones for the new keys, each once, in the order of their first
    occurrence. -/
theorem Miner.tables_run_closed_form (v : Variant) (set : String) (logs : List (List String))
    (log : List String) :
    let before := ((Miner.new v set).runAll logs).tables
    let after := (((Miner.new v set).runAll logs).run log).1.tables
    let entries := (v.results set log).filterMap Outcome.entered?
    (v.sections log).map (v.mine? set log) = (v.results set log).map some
      ∧ (∀ key bucket,
          after.values.get? key bucket
              = ((lastAt entries key bucket).map Entry.value).or (before.values.get? key bucket)
            ∧ after.missed.get? key bucket
              = ((lastAt entries key bucket).map Entry.missed).or (before.missed.get? key bucket))
      ∧ after.values.outline
          = before.values.outline
            ++ (newKeys before.values.keys (entries.map Entry.row)).map (fun key => (key, true))
      ∧ after.missed.outline
          = before.missed.outline
            ++ (newKeys before.missed.keys (entries.map Entry.row)).map (fun key => (key, true)) := by
  intro before after entries
  have hbefore : before.WellFormed v.columns :=
    wellFormed_runAll (m := Miner.new v set) (v.wellFormed_freshTables set) logs
  have hafter : after = entries.foldl Tables.put before := by
    have := tables_run ((Miner.new v set).runAll logs) log
    rwa [variant_runAll, set_runAll] at this
  have hbucket : ∀ e ∈ entries, e.bucket ≤ v.columns.unmapped :=
    fun e he => Variant.bucket_le_of_mem_entries he
  refine ⟨v.map_mine?_sections set log, fun key bucket => ⟨?_, ?_⟩, ?_, ?_⟩
  · rw [hafter, Tables.values_foldl_put, hbefore.values.get?_foldl_write hbucket]
  · rw [hafter, Tables.missed_foldl_put, hbefore.missed.get?_foldl_write hbucket]
  · rw [hafter, Tables.values_foldl_put, Matrix.outline_foldl_write]
  · rw [hafter, Tables.missed_foldl_put, Matrix.outline_foldl_write]

end BenchLog
