import BenchLog.Proofs.Mining.Concatenation
import BenchLog.Proofs.Mining.Cursor
import BenchLog.Proofs.Mining.Summary
import BenchLog.Proofs.Table.Indexed

/-!
# `BenchLog.Proofs.Mining.Locality` — a section depends on its own lines

A section is looked for in a whole log, and nothing in the way in which it is mined keeps the cursor from
looking elsewhere. It never does: what a section comes to is decided by its first line and the lines between
its bounds, wherever they stand in the log. Since no position goes astray in a single section, none does in a
log with all its sections, nor in the tables that their outcomes are written to.

## Contents
- `Section.lines_congr`, `Variant.mine?_congr`: other lines do not matter;
- `Variant.mine?_eq_none_iff`: where there is no outcome;
- `Tables.enter?_indexed`, `Tables.fresh?_eq`, `Summary.Bounded`: one outcome by way of the indexes;
- `Miner.mine?_indexed`, `Miner.run?_indexed`, `Miner.runAll?_indexed`: a section, a log, some logs;
- `Miner.run_append_of_quiet`: lines in front of all sections;
- `Miner.mining_is_local`.
-/

namespace BenchLog

variable {limit : Nat} {log log' before : List String} {s : Section} {v : Variant}

/-! ## What a section depends on -/

theorem Section.lines_congr (h : ∀ i, s.Covers i → log[i]? = log'[i]?) : s.lines log = s.lines log' := by
  apply List.ext_getElem?
  intro k
  rw [s.getElem?_lines, s.getElem?_lines]
  by_cases hlast : s.first + k ≤ s.last
  · rw [if_pos hlast, if_pos hlast, h _ ⟨Nat.le_add_right _ _, hlast⟩]
  · rw [if_neg hlast, if_neg hlast]

namespace Variant

/-- Logs that agree on the first line of a section and between its bounds give it the same outcome. -/
theorem mine?_congr (hfirst : log[s.first]? = log'[s.first]?)
    (hlines : ∀ i, s.Covers i → log[i]? = log'[i]?) (v : Variant) (set : String) :
    v.mine? set log s = v.mine? set log' s := by
  have hsame := Section.lines_congr hlines
  cases v with
  | counter => rw [mine?, mine?, Counter.mine, Counter.mine, hsame]
  | syscall => rw [mine?, mine?, Syscall.mine?, Syscall.mine?, hsame, hfirst]

/-- Only the first line of a section of the syscall log has to be there. -/
theorem mine?_eq_none_iff (v : Variant) (set : String) (log : List String) (s : Section) :
    v.mine? set log s = none ↔ v = .syscall ∧ log.length ≤ s.first := by
  cases v with
  | counter => exact iff_of_false (nomatch ·) fun h => nomatch h.1
  | syscall => rw [mine?, Syscall.mine?, Option.map_eq_none_iff, List.getElem?_eq_none_iff, eq_self, true_and]

end Variant

/-! ## An outcome by way of the indexes -/

namespace Tables

variable {axis : Axis} {t : Tables}

theorem record?_indexed (h : t.WellFormed axis) (key : RowKey) (bucket : Nat) (value missed : UInt64) :
    t.indexed.record? key bucket value missed = some (t.record key bucket value missed).indexed := by
  unfold IndexedTables.record? indexed
  simp only [Matrix.write?_indexed h.values, Matrix.write?_indexed h.missed]
  rfl

theorem hide?_indexed (h : t.WellFormed axis) (key : RowKey) :
    t.indexed.hide? key = some (t.hide key).indexed := by
  unfold IndexedTables.hide? indexed
  simp only [Matrix.hide?_indexed h.values, Matrix.hide?_indexed h.missed]
  rfl

theorem enter?_indexed (h : t.WellFormed axis) (o : Outcome) :
    t.indexed.enter? o = some (t.enter o).indexed := by
  cases o with
  | recorded row bucket value missed unlisted => exact record?_indexed h row bucket value missed
  | degenerate row bucket reason => exact record?_indexed h row bucket 0 0
  | skipped reason => rfl

theorem WellFormed.enter (h : t.WellFormed axis) (o : Outcome) : (t.enter o).WellFormed axis := by
  cases o with
  | recorded row bucket value missed unlisted => exact h.record row bucket value missed
  | degenerate row bucket reason => exact h.record row bucket 0 0
  | skipped reason => exact h

theorem WellFormed.ensure (h : t.WellFormed axis) (key : RowKey) : (t.ensure key).WellFormed axis :=
  ⟨h.values.ensure key, h.missed.ensure key⟩

theorem ensure_indexed (h : t.WellFormed axis) (key : RowKey) :
    t.indexed.ensure key = (t.ensure key).indexed := by
  obtain ⟨_, hvalues, _⟩ := Matrix.position_indexed h.values key
  obtain ⟨_, hmissed, _⟩ := Matrix.position_indexed h.missed key
  unfold IndexedTables.ensure indexed
  rw [hvalues, hmissed]
  rfl

theorem foldl_ensure_indexed (h : t.WellFormed axis) (keys : List RowKey) :
    (keys.foldl ensure t).WellFormed axis
      ∧ keys.foldl IndexedTables.ensure t.indexed = (keys.foldl ensure t).indexed := by
  induction keys generalizing t with
  | nil => exact ⟨h, rfl⟩
  | cons key keys ih =>
      rw [List.foldl_cons, List.foldl_cons, ensure_indexed h]
      exact ih (h.ensure key)

/-- The tables before any log have indexes of their own. -/
theorem fresh?_eq (v : Variant) (set : String) :
    IndexedTables.fresh? v set = some (v.freshTables set).indexed := by
  cases v with
  | counter => rfl
  | syscall =>
      obtain ⟨hwell, hkeys⟩ := foldl_ensure_indexed (WellFormed.empty Variant.syscall.columns)
        (Axis.syscallInstances.labels.map (RowKey.labelled set))
      exact (congrArg (IndexedTables.hide? · _) hkeys).trans (hide?_indexed hwell _)

end Tables

namespace Summary

/-- No count is larger than that of the sections. -/
structure Bounded (s : Summary) : Prop where
  recorded : s.recorded ≤ s.sections
  degenerate : s.degenerate ≤ s.sections
  skipped : s.skipped ≤ s.sections
  ambiguous : s.ambiguous ≤ s.sections
  outOfRange : s.outOfRange ≤ s.sections

theorem sections_add (columns : Axis) (s : Summary) (o : Outcome) :
    (s.add columns o).sections = s.sections + 1 := by
  rw [add_eq]

variable {s : Summary}

theorem Bounded.add (h : s.Bounded) (columns : Axis) (o : Outcome) : (s.add columns o).Bounded := by
  obtain ⟨hrecorded, hdegenerate, hskipped, hambiguous, hout⟩ := h
  cases o with
  | recorded row bucket value missed unlisted =>
      have := Bool.toNat_le (columns.isUnmapped bucket || unlisted)
      constructor <;> simp only [Summary.add] <;> omega
  | degenerate row bucket reason =>
      have := Bool.toNat_le (columns.isUnmapped bucket)
      constructor <;> simp only [Summary.add] <;> omega
  | skipped reason => cases reason <;> constructor <;> simp only [Summary.add] <;> omega

theorem Bounded.add? (h : s.Bounded) (columns : Axis) (o : Outcome) (hfits : s.sections + 1 ≤ limit) :
    s.add? limit columns o = some (s.add columns o) := by
  have hbounded := h.add columns o
  have hsections := sections_add columns s o
  obtain ⟨hrecorded, hdegenerate, hskipped, hambiguous, hout⟩ := hbounded
  have hsum : (s.add columns o).fits limit = true := by
    simp only [fits, List.all_cons, List.all_nil, Bool.and_true, Bool.and_eq_true, decide_eq_true_eq]
    omega
  exact if_pos hsum

end Summary

/-! ## A miner by way of the indexes -/

namespace Miner

variable {m : Miner} {summary : Summary}

/-- A miner after one more outcome. -/
def enter (m : Miner) (o : Outcome) : Miner := { m with tables := m.tables.enter o }

theorem mine?_indexed (h : log.length < limit) (hm : m.tables.WellFormed m.variant.columns)
    (hsummary : summary.Bounded) (hcount : summary.sections + 1 ≤ limit) {o : Outcome}
    (ho : m.variant.mine? m.set log s = some o) :
    IndexedMiner.mine? limit log (m.indexed, summary) s
      = some ((m.enter o).indexed, summary.add m.variant.columns o) := by
  unfold IndexedMiner.mine? indexed
  simp only [Variant.mineAt?_eq h, ho, hsummary.add? _ _ hcount, Tables.enter?_indexed hm]
  rfl

/-- Sections that open on a line of the log are mined one after the other, and each has an outcome. The
    induction is on the sections; the counts grow by at most one with each. -/
theorem foldlM_mine?_indexed (h : log.length < limit) {ss : List Section}
    (hss : ∀ s ∈ ss, s.first < log.length) (hm : m.tables.WellFormed m.variant.columns)
    (hsummary : summary.Bounded) (hcount : summary.sections + ss.length ≤ limit) :
    ss.foldlM (IndexedMiner.mine? limit log) (m.indexed, summary)
      = some (((ss.filterMap (m.variant.mine? m.set log)).foldl enter m).indexed,
          (ss.filterMap (m.variant.mine? m.set log)).foldl (Summary.add m.variant.columns) summary) := by
  induction ss generalizing m summary with
  | nil => rfl
  | cons s ss ih =>
      obtain ⟨hs, hss⟩ := List.forall_mem_cons.1 hss
      rw [List.length_cons] at hcount
      obtain ⟨o, ho⟩ := m.variant.exists_mine? m.set hs
      have hnext := Summary.sections_add m.variant.columns summary o
      rw [List.foldlM_cons, mine?_indexed h hm hsummary (by omega) ho, List.filterMap_cons_some ho]
      exact ih hss (m := m.enter o) (hm.enter o) (hsummary.add _ o) (by omega)

theorem foldl_enter (m : Miner) (os : List Outcome) :
    os.foldl enter m = { m with tables := os.foldl Tables.enter m.tables } := by
  induction os generalizing m with
  | nil => rfl
  | cons o os ih => exact ih (m.enter o)

/-- A log is mined by way of the indexes as it is without them. -/
theorem run?_indexed (h : log.length < limit) (hm : m.tables.WellFormed m.variant.columns) :
    m.indexed.run? limit log = some ((m.run log).1.indexed, (m.run log).2) := by
  have hsections : sectionsAt? limit m.variant.opens m.variant.minSpan log 0
      = some (m.variant.sections log) := sectionsAt?_eq (Nat.le_of_lt h) _ _
  have hcount : ({} : Summary).sections + (m.variant.sections log).length ≤ limit := by
    have : (m.variant.sections log).length ≤ log.length := length_sections_le _ _ log
    show 0 + _ ≤ limit
    omega
  have hloop := foldlM_mine?_indexed h (fun s hs => Variant.first_lt_of_mem_sections hs) hm
    ⟨Nat.le_refl 0, Nat.le_refl 0, Nat.le_refl 0, Nat.le_refl 0, Nat.le_refl 0⟩ hcount
  -- What the loop went through are the outcomes of the log.
  rw [foldl_enter, ← Variant.results_eq_filterMap] at hloop
  exact (congrArg (Option.bind · _) hsections).trans hloop

/-- So are logs that are mined one after the other. -/
theorem runAll?_indexed {logs : List (List String)} (h : ∀ log ∈ logs, log.length < limit)
    (hm : m.tables.WellFormed m.variant.columns) :
    m.indexed.runAll? limit logs = some (m.runAll logs).indexed := by
  induction logs generalizing m with
  | nil => rfl
  | cons log logs ih =>
      obtain ⟨hlog, hlogs⟩ := List.forall_mem_cons.1 h
      have hnext : ((m.run log).1).tables.WellFormed m.variant.columns := wellFormed_runAll hm [log]
      unfold IndexedMiner.runAll?
      rw [List.foldlM_cons, run?_indexed hlog hm]
      exact ih hlogs hnext

/-! ## Lines in front of all sections -/

theorem run_append_of_quiet (h : ∀ line ∈ before, m.variant.opens line = false) (log : List String) :
    m.run (before ++ log) = m.run log := by
  have hresults : m.variant.results m.set (before ++ log) = m.variant.results m.set log := by
    rw [Variant.results_eq_filterMap, Variant.results_eq_filterMap, Variant.sections,
      sections_append_of_quiet h, List.filterMap_map]
    exact List.filterMap_congr fun s _ => m.variant.mine?_shift m.set s before log
  show (_, _) = (_, _)
  rw [← Variant.results, ← Variant.results, hresults]

/-- **A section is mined within its bounds, wherever it stands.** Let `limit` be the largest word and logs be
    shorter. Take any positions as the bounds of a section, in any order and past the end of the log if need
    be. Logs that agree on its first line and on all lines between its bounds give it the same outcome, and so
    does a log with other lines in front and the bounds moved down by their number. Mining it by positions comes
    to no place that is missing and to no position that is too large for a word, unless the log is of the
    syscall kind and has no line where the section opens; the outcome is that of the lines of the section.
    A miner that was made for `set` therefore gets through any logs, and its indexes and counts never fail it;
    and lines in front of a log that open no section change nothing in its tables or its summary. -/
theorem mining_is_local (limit : Nat) (v : Variant) (set : String) :
    (∀ log log' s, log.length < limit → log'.length < limit → log[s.first]? = log'[s.first]? →
        (∀ i, s.first ≤ i → i ≤ s.last → log[i]? = log'[i]?) →
        v.mineAt? limit set log s = v.mineAt? limit set log' s)
      ∧ (∀ before log s, (before ++ log).length < limit →
          v.mineAt? limit set (before ++ log) (s.shift before.length) = v.mineAt? limit set log s)
      ∧ (∀ log s, log.length < limit → v.mineAt? limit set log s = v.mine? set log s
          ∧ (v.mineAt? limit set log s = none ↔ v = .syscall ∧ log.length ≤ s.first))
      ∧ ∀ logs, (∀ log ∈ logs, log.length < limit) →
        let miner := (Miner.new v set).runAll logs
        (IndexedMiner.new? v set).bind (·.runAll? limit logs) = some miner.indexed
          ∧ (∀ log, log.length < limit →
              miner.indexed.run? limit log = some ((miner.run log).1.indexed, (miner.run log).2))
          ∧ ∀ before log, (∀ line ∈ before, v.opens line = false) →
              miner.run (before ++ log) = miner.run log := by
  refine ⟨?_, ?_, ?_, ?_⟩
  · intro log log' s h h' hfirst hlines
    rw [Variant.mineAt?_eq h, Variant.mineAt?_eq h']
    exact Variant.mine?_congr hfirst (fun i hi => hlines i hi.1 hi.2) v set
  · intro before log s h
    have hlog : log.length < limit := Nat.lt_of_le_of_lt (by simp) h
    rw [Variant.mineAt?_eq h, Variant.mineAt?_eq hlog, Variant.mine?_shift]
  · intro log s h
    rw [Variant.mineAt?_eq h]
    exact ⟨rfl, v.mine?_eq_none_iff set log s⟩
  · intro logs h miner
    have hnew : (Miner.new v set).tables.WellFormed v.columns := v.wellFormed_freshTables set
    have hminer : miner.tables.WellFormed miner.variant.columns := by
      rw [variant_runAll]
      exact wellFormed_runAll hnew logs
    refine ⟨?_, fun log hlog => run?_indexed hlog hminer, fun before log hbefore => ?_⟩
    · rw [IndexedMiner.new?, Tables.fresh?_eq]
      exact runAll?_indexed (m := Miner.new v set) h hnew
    · apply run_append_of_quiet
      rw [variant_runAll]
      exact hbefore

/-- Logs that differ around a section, a section past the end of a log, and lines in front of one. -/
theorem mining_is_local_word :
    let limit := 18446744073709551615
    let mineAt := Variant.syscall.mineAt? limit "fl"
    mineAt ["flock", "krp_insts=96", "8"] ⟨1, 2⟩ = mineAt ["", "krp_insts=96", "8", "flock"] ⟨1, 2⟩
      ∧ mineAt ["8", "krp_insts=96"] ⟨1, 9⟩ = mineAt ["krp_insts=96"] ⟨0, 8⟩
      ∧ mineAt ["krp_insts=96"] ⟨1, limit⟩ = none
      ∧ ((IndexedMiner.new? .syscall "fl").bind
          (·.runAll? limit [["8", "krp_insts=96", "flock"], ["krp_insts=96"]])).isSome = true
      ∧ (Miner.new .syscall "fl").run ["8", "krp_insts=96", "flock"]
        = (Miner.new .syscall "fl").run ["krp_insts=96", "flock"] := by
  intro limit mineAt
  obtain ⟨hagree, hshift, hnone, hruns⟩ := mining_is_local limit .syscall "fl"
  refine ⟨hagree _ _ ⟨1, 2⟩ (by decide) (by decide) rfl fun i hi hlast => ?_,
    hshift ["8"] ["krp_insts=96"] ⟨0, 8⟩ (by decide), (hnone _ ⟨1, limit⟩ (by decide)).2.2 ⟨rfl, by decide⟩,
    ?_, ?_⟩
  · have hi : 1 ≤ i := hi
    have hlast : i ≤ 2 := hlast
    obtain rfl | rfl : i = 1 ∨ i = 2 := by omega
    · rfl
    · rfl
  · rw [(hruns _ (by decide)).1]
    rfl
  · exact (hruns [] (by decide)).2.2 ["8"] ["krp_insts=96", "flock"] (by decide)

end Miner

end BenchLog
