import BenchLog.Mining.Miner
import BenchLog.Proofs.Mining.Syscall
import BenchLog.Proofs.Section.Openings
import BenchLog.Proofs.Table.Absorb

/-!
# `BenchLog.Proofs.Mining.Entries` — what the sections of a log enter into tables

A section that is not skipped enters one value and one missed count into the same cell of two matrices: the
values of a chosen sample, or zeros where none could be chosen. What a log does to tables is therefore the
list of its entries, in the order of its sections.

## Contents
- `Variant.results`, the outcomes of a log, with `Variant.map_mine?_sections`: each section has one;
- `Entry`, `Outcome.entered?`, `Tables.put`, and `foldl_enter`;
- `Variant.bucket_le_of_mem_entries`, `Variant.row_of_mem_entries_syscall`, where entries can go;
- `Miner.runAll`, a miner on several logs.
-/

namespace BenchLog

/-! ## The outcomes of a log -/

namespace Variant

/-- The outcomes of the sections of a log that are mined, in order. -/
def results (v : Variant) (set : String) (log : List String) : List Outcome :=
  (v.outcomes set log).map Prod.snd

theorem results_eq_filterMap (v : Variant) (set : String) (log : List String) :
    v.results set log = (v.sections log).filterMap (v.mine? set log) := by
  rw [results, outcomes, List.map_filterMap]
  refine List.filterMap_congr fun s _ => ?_
  cases v.mine? set log s <;> rfl

/-- A section that opens on a line of the log has an outcome. -/
theorem exists_mine? (v : Variant) (set : String) {log : List String} {s : Section}
    (h : s.first < log.length) : ∃ o, v.mine? set log s = some o := by
  cases v with
  | counter => exact ⟨_, rfl⟩
  | syscall =>
      refine ⟨Syscall.mineFrom set log[s.first] (s.lines log), ?_⟩
      rw [mine?, Syscall.mine?, List.getElem?_eq_getElem h, Option.map_some]

theorem first_lt_of_mem_sections {v : Variant} {log : List String} {s : Section}
    (h : s ∈ v.sections log) : s.first < log.length := by
  obtain ⟨_, hlt, hlast⟩ := bounds_of_mem_sections h
  omega

/-- Every section that is visited has one outcome, in the order of the sections. -/
theorem map_mine?_sections (v : Variant) (set : String) (log : List String) :
    (v.sections log).map (v.mine? set log) = (v.results set log).map some := by
  rw [results_eq_filterMap]
  have hsome : ∀ s ∈ v.sections log, ∃ o, v.mine? set log s = some o :=
    fun s hs => v.exists_mine? set (first_lt_of_mem_sections hs)
  generalize v.sections log = ss at hsome
  induction ss with
  | nil => rfl
  | cons s ss ih =>
      obtain ⟨⟨o, ho⟩, hss⟩ := List.forall_mem_cons.1 hsome
      rw [List.map_cons, List.filterMap_cons_some ho, List.map_cons, ih hss, ho]

theorem exists_of_mem_results {v : Variant} {set : String} {log : List String} {o : Outcome}
    (h : o ∈ v.results set log) : ∃ s ∈ v.sections log, v.mine? set log s = some o := by
  rw [results_eq_filterMap, List.mem_filterMap] at h
  exact h

end Variant

/-! ## Entries -/

/-- What a section enters: a value and a missed count for one cell. -/
structure Entry where
  row : RowKey
  bucket : Nat
  value : UInt64
  missed : UInt64
deriving DecidableEq

/-- The entry of an outcome: a degenerate section enters zeros, a skipped one nothing. -/
def Outcome.entered? : Outcome → Option Entry
  | .recorded row bucket value missed _ => some ⟨row, bucket, value, missed⟩
  | .degenerate row bucket _ => some ⟨row, bucket, 0, 0⟩
  | .skipped _ => none

/-- The entries of a log, in the order of its sections. -/
def Variant.entries (v : Variant) (set : String) (log : List String) : List Entry :=
  (v.results set log).filterMap Outcome.entered?

namespace Tables

/-- Tables after an entry. -/
def put (t : Tables) (e : Entry) : Tables := t.record e.row e.bucket e.value e.missed

/-- Entering outcomes is putting their entries. -/
theorem foldl_enter (os : List Outcome) (t : Tables) :
    os.foldl enter t = (os.filterMap Outcome.entered?).foldl put t := by
  induction os generalizing t with
  | nil => rfl
  | cons o os ih =>
      cases o with
      | recorded row bucket value missed unlisted => exact ih _
      | degenerate row bucket reason => exact ih _
      | skipped reason => exact ih t

theorem values_foldl_put (es : List Entry) (t : Tables) :
    (es.foldl put t).values = es.foldl (fun m e => m.write e.row e.bucket e.value) t.values := by
  induction es generalizing t with
  | nil => rfl
  | cons e es ih => exact ih _

theorem missed_foldl_put (es : List Entry) (t : Tables) :
    (es.foldl put t).missed = es.foldl (fun m e => m.write e.row e.bucket e.missed) t.missed := by
  induction es generalizing t with
  | nil => rfl
  | cons e es ih => exact ih _

variable {axis : Axis} {t other : Tables}

theorem WellFormed.put (h : WellFormed axis t) (e : Entry) : WellFormed axis (t.put e) :=
  h.record e.row e.bucket e.value e.missed

theorem WellFormed.foldl_put (h : WellFormed axis t) (es : List Entry) :
    WellFormed axis (es.foldl Tables.put t) := by
  induction es generalizing t with
  | nil => exact h
  | cons e es ih => exact ih (h.put e)

theorem absorb_put (ht : WellFormed axis t) (hother : WellFormed axis other) (e : Entry) :
    t.absorb (other.put e) = (t.absorb other).put e :=
  absorb_record ht hother e.row e.bucket e.value e.missed

/-- Entries may be put before or after laying tables over others. -/
theorem absorb_foldl_put (ht : WellFormed axis t) (hother : WellFormed axis other)
    (es : List Entry) : t.absorb (es.foldl put other) = es.foldl put (t.absorb other) := by
  induction es generalizing other with
  | nil => rfl
  | cons e es ih => rw [List.foldl_cons, List.foldl_cons, ih (hother.put e), absorb_put ht hother]

end Tables

/-! ## Where entries can go -/

theorem Axis.bucketOf_le (axis : Axis) (value : UInt64) : axis.bucketOf value ≤ axis.unmapped := by
  unfold bucketOf unmapped size
  cases h : axis.values.findIdx? (· == value) with
  | none => exact Nat.le_refl _
  | some i => exact Nat.le_of_lt (List.findIdx?_eq_some_iff_getElem.1 h).1

/-- What a section of the syscall log enters goes to the row of some number of instances. -/
theorem Syscall.entered?_mineFrom {set tag : String} {lines : List String} {e : Entry}
    (h : (Syscall.mineFrom set tag lines).entered? = some e) :
    ∃ instances threads, e.row = Syscall.rowOf set instances
      ∧ e.bucket = Axis.syscallThreads.bucketOf threads := by
  unfold mineFrom at h
  cases hsample : sample set tag lines with
  | error reason => rw [hsample] at h; exact nomatch h
  | ok outcome =>
      obtain ⟨instances, threads, value, missed, rfl⟩ := sample_eq_ok hsample
      rw [hsample] at h
      obtain rfl := Option.some.inj h
      exact ⟨instances, threads, rfl, rfl⟩

/-- What a section of the counter log enters goes to the row and the column of one of its records. -/
theorem Counter.entered?_mine {log : List String} {s : Section} {e : Entry}
    (h : (Counter.mine log s).entered? = some e) :
    ∃ r, e.row = Counter.rowOf r ∧ e.bucket = Counter.bucketOf r := by
  unfold mine at h
  split at h
  · exact nomatch h
  · exact nomatch h
  · next first rest _ _ =>
      unfold choose at h
      dsimp only at h
      split at h
      · obtain rfl := Option.some.inj h
        exact ⟨_, rfl, rfl⟩
      · obtain rfl := Option.some.inj h
        exact ⟨first, rfl, rfl⟩

namespace Variant

/-- No entry lies past the unmapped column. -/
theorem bucket_le_of_mem_entries {v : Variant} {set : String} {log : List String} {e : Entry}
    (h : e ∈ v.entries set log) : e.bucket ≤ v.columns.unmapped := by
  obtain ⟨o, ho, he⟩ := List.mem_filterMap.1 h
  obtain ⟨s, _, hs⟩ := exists_of_mem_results ho
  cases v with
  | counter =>
      obtain rfl := Option.some.inj hs
      obtain ⟨r, _, hbucket⟩ := Counter.entered?_mine he
      rw [hbucket]
      exact Axis.bucketOf_le _ _
  | syscall =>
      obtain ⟨tag, _, rfl⟩ := Option.map_eq_some_iff.1 hs
      obtain ⟨_, threads, _, hbucket⟩ := Syscall.entered?_mineFrom he
      rw [hbucket]
      exact Axis.bucketOf_le _ _

theorem row_of_mem_entries_syscall {set : String} {log : List String} {e : Entry}
    (h : e ∈ syscall.entries set log) : ∃ instances, e.row = Syscall.rowOf set instances := by
  obtain ⟨o, ho, he⟩ := List.mem_filterMap.1 h
  obtain ⟨s, _, hs⟩ := exists_of_mem_results ho
  obtain ⟨tag, _, rfl⟩ := Option.map_eq_some_iff.1 hs
  obtain ⟨instances, _, hrow, _⟩ := Syscall.entered?_mineFrom he
  exact ⟨instances, hrow⟩

end Variant

/-! ## A miner on several logs -/

namespace Miner

/-- A miner after logs that are mined one after the other. -/
def runAll (m : Miner) (logs : List (List String)) : Miner :=
  logs.foldl (fun m log => (m.run log).1) m

theorem tables_run (m : Miner) (log : List String) :
    (m.run log).1.tables = (m.variant.entries m.set log).foldl Tables.put m.tables :=
  Tables.foldl_enter _ _

theorem variant_runAll (m : Miner) (logs : List (List String)) :
    (m.runAll logs).variant = m.variant := by
  induction logs generalizing m with
  | nil => rfl
  | cons log logs ih => exact ih _

theorem set_runAll (m : Miner) (logs : List (List String)) : (m.runAll logs).set = m.set := by
  induction logs generalizing m with
  | nil => rfl
  | cons log logs ih => exact ih _

end Miner

end BenchLog
