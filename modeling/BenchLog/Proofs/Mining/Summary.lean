import BenchLog.Proofs.Mining.Outline

/-!
# `BenchLog.Proofs.Mining.Summary` — what a summary counts

A summary is counted up from the outcomes of a log, before anything is entered into tables: whether a write
went astray is read off the bucket and a mark that the outcome carries. Here the counts are tied to the
sections of the log and to the tables that are left behind. The mark is right because of what the tables look
like. Those of the counter log hide no row, and its outcomes carry no mark; those of the syscall log hide the
row for all unlisted numbers and no other, and the mark says that the number is unlisted.

## Contents
- `Variant.Form`, what outcomes look like, and `Variant.form_of_mem_results`;
- `Outcome.isRecorded`, `isDegenerate`, `isSkipped`, `isUnselected`, `isMarked`: what is counted;
- `Summary.add_eq`, `Summary.foldl_add`: one more outcome, and all of them;
- `Matrix.AllShown`, `Miner.allShown_runAll`: the counter log hides nothing;
- `Outcome.isStray`, a write that nobody sees, and `Variant.Form.isMarked_eq_isStray`;
- `Miner.summary_accounts`.
-/

namespace BenchLog

open BenchLog.Record

/-! ## What outcomes look like -/

/-- The outcomes there can be, by the kind of log. Those of the counter log never carry a mark, and none of
    its sections is skipped because no sample could be chosen. Those of the syscall log are never
    degenerate, and the mark says whether the number of instances is unlisted. -/
inductive Variant.Form (set : String) : Variant → Outcome → Prop where
  | counterRecorded (r : CounterRecord) (value missed : UInt64) :
      Form set .counter (.recorded (Counter.rowOf r) (Counter.bucketOf r) value missed false)
  | counterDegenerate (r : CounterRecord) (reason : SelectionError) :
      Form set .counter (.degenerate (Counter.rowOf r) (Counter.bucketOf r) reason)
  | counterEmpty : Form set .counter (.skipped .noRecords)
  | counterFault (fault : LineError) : Form set .counter (.skipped (.line fault))
  | syscallRecorded (instances threads value missed : UInt64) :
      Form set .syscall (.recorded (Syscall.rowOf set instances)
        (Axis.syscallThreads.bucketOf threads) value missed (Syscall.isUnlisted instances))
  | syscallSkipped (reason : SkipReason) : Form set .syscall (.skipped reason)

namespace Variant

theorem form_mine (set : String) (log : List String) (s : Section) :
    Form set counter (Counter.mine log s) := by
  unfold Counter.mine
  split
  · exact .counterEmpty
  · exact .counterFault _
  · unfold Counter.choose
    dsimp only
    split
    · exact .counterRecorded _ _ _
    · exact .counterDegenerate _ _

theorem form_mineFrom (set tag : String) (lines : List String) :
    Form set syscall (Syscall.mineFrom set tag lines) := by
  unfold Syscall.mineFrom
  cases hsample : Syscall.sample set tag lines with
  | error reason => exact .syscallSkipped reason
  | ok outcome =>
      obtain ⟨instances, threads, value, missed, rfl⟩ := Syscall.sample_eq_ok hsample
      exact .syscallRecorded instances threads value missed

theorem form_of_mem_results {v : Variant} {set : String} {log : List String} {o : Outcome}
    (h : o ∈ v.results set log) : Form set v o := by
  obtain ⟨s, _, hs⟩ := exists_of_mem_results h
  cases v with
  | counter =>
      obtain rfl := Option.some.inj hs
      exact form_mine set log s
  | syscall =>
      obtain ⟨tag, _, rfl⟩ := Option.map_eq_some_iff.1 hs
      exact form_mineFrom set tag (s.lines log)

end Variant

/-! ## What is counted -/

namespace Outcome

/-- A sample was chosen. -/
def isRecorded : Outcome → Bool
  | .recorded .. => true
  | _ => false

/-- Zeros were entered because none could be chosen. -/
def isDegenerate : Outcome → Bool
  | .degenerate .. => true
  | _ => false

/-- Nothing was entered. -/
def isSkipped : Outcome → Bool
  | .skipped _ => true
  | _ => false

/-- Nothing was entered because no sample could be chosen. -/
def isUnselected : Outcome → Bool
  | .skipped (.selection _) => true
  | _ => false

/-- A write that counts as astray: its bucket is the unmapped one, or the outcome is marked as unlisted. -/
def isMarked (columns : Axis) : Outcome → Bool
  | .recorded _ bucket _ _ unlisted => columns.isUnmapped bucket || unlisted
  | .degenerate _ bucket _ => columns.isUnmapped bucket
  | .skipped _ => false

/-- An outcome is of one kind of three. -/
theorem toNat_kinds (o : Outcome) :
    o.isRecorded.toNat + o.isDegenerate.toNat + o.isSkipped.toNat = 1 := by
  cases o <;> rfl

end Outcome

namespace Summary

/-- One more outcome adds to each count whether it is of that kind. -/
theorem add_eq (columns : Axis) (s : Summary) (o : Outcome) :
    s.add columns o
      = { sections := s.sections + 1
          recorded := s.recorded + o.isRecorded.toNat
          degenerate := s.degenerate + o.isDegenerate.toNat
          skipped := s.skipped + o.isSkipped.toNat
          ambiguous := s.ambiguous + o.isDegenerate.toNat + o.isUnselected.toNat
          outOfRange := s.outOfRange + (o.isMarked columns).toNat } := by
  cases o with
  | recorded row bucket value missed unlisted => rfl
  | degenerate row bucket reason => rfl
  | skipped reason => cases reason <;> rfl

theorem countP_cons_toNat {α : Type} (p : α → Bool) (x : α) (xs : List α) :
    (x :: xs).countP p = (p x).toNat + xs.countP p := by
  rw [List.countP_cons, Nat.add_comm]
  cases p x <;> rfl

/-- After any outcomes each count has grown by how many of them are of that kind. -/
theorem foldl_add (columns : Axis) (os : List Outcome) (s : Summary) :
    os.foldl (add columns) s
      = { sections := s.sections + os.length
          recorded := s.recorded + os.countP Outcome.isRecorded
          degenerate := s.degenerate + os.countP Outcome.isDegenerate
          skipped := s.skipped + os.countP Outcome.isSkipped
          ambiguous := s.ambiguous + os.countP Outcome.isDegenerate + os.countP Outcome.isUnselected
          outOfRange := s.outOfRange + os.countP (Outcome.isMarked columns) } := by
  induction os generalizing s with
  | nil => rfl
  | cons o os ih =>
      rw [List.foldl_cons, ih, add_eq]
      simp only [countP_cons_toNat, List.length_cons, Summary.mk.injEq]
      omega

end Summary

/-- The kinds of outcomes add up. -/
theorem length_eq_countP_kinds (os : List Outcome) :
    os.length
      = os.countP Outcome.isRecorded + os.countP Outcome.isDegenerate + os.countP Outcome.isSkipped := by
  induction os with
  | nil => rfl
  | cons o os ih =>
      have hkinds := o.toNat_kinds
      simp only [Summary.countP_cons_toNat, List.length_cons]
      omega

/-! ## Rows that are hidden -/

namespace Matrix

variable {axis : Axis} {m : Matrix} {set : String}

/-- No row is hidden. -/
def AllShown (m : Matrix) : Prop := ∀ row ∈ m.outline, row.2 = true

theorem AllShown.visible?_ne (h : m.AllShown) (key : RowKey) : m.visible? key ≠ some false := by
  intro hhidden
  obtain ⟨r, hr, hvisible⟩ := Option.map_eq_some_iff.1 hhidden
  have hshown : r.visible = true := h _ (List.mem_map_of_mem (mem_of_row? hr))
  rw [hvisible] at hshown
  exact Bool.noConfusion hshown

/-- Writing hides nothing. -/
theorem AllShown.foldl_write (h : m.AllShown) (es : List Entry) (value : Entry → UInt64) :
    (es.foldl (fun m e => m.write e.row e.bucket (value e)) m).AllShown := by
  intro row hrow
  rw [outline_foldl_write, List.mem_append] at hrow
  rcases hrow with hold | hnew
  · exact h row hold
  · obtain ⟨key, _, rfl⟩ := List.mem_map.1 hnew
    rfl

/-- In a matrix with the rows of a set, the row of a number of instances is hidden if and only if the number
    is unlisted. -/
theorem visible?_rowOf (hm : WellFormed axis m) (houtline : m.outline = Syscall.setOutline set)
    (instances : UInt64) :
    m.visible? (Syscall.rowOf set instances) = some (!Syscall.isUnlisted instances) := by
  apply hm.visible?_of_mem_outline
  rw [houtline, Syscall.rowOf_eq, Syscall.isUnlisted_eq, Syscall.setOutline, List.mem_append]
  by_cases hlisted : instances ∈ Axis.syscallInstances.values
  · -- A listed number is one of five, each with its label.
    refine Or.inl (List.mem_map.2 ⟨Decimal.text instances, ?_, ?_⟩)
    · rw [← Syscall.labels_eq]
      exact List.mem_map_of_mem hlisted
    · simp [hlisted]
  · refine Or.inr (List.mem_singleton.2 ?_)
    simp [hlisted, Axis.otherLabel]

end Matrix

/-- A miner of the counter log never hides a row. -/
theorem Miner.allShown_runAll (set : String) (logs : List (List String)) :
    ((Miner.new .counter set).runAll logs).tables.values.AllShown := by
  have hkept : ∀ m : Miner, m.tables.values.AllShown → (m.runAll logs).tables.values.AllShown := by
    induction logs with
    | nil => exact fun m h => h
    | cons log logs ih =>
        intro m h
        apply ih (m.run log).1
        rw [tables_run, Tables.values_foldl_put]
        exact h.foldl_write _ _
  exact hkept _ fun row hrow => absurd hrow List.not_mem_nil

/-! ## Writes that nobody sees -/

theorem Axis.isUnmapped_eq (axis : Axis) (bucket : Nat) :
    axis.isUnmapped bucket = decide (min bucket axis.unmapped = axis.unmapped) :=
  decide_eq_decide.2 (by omega)

namespace Outcome

/-- Whether an outcome wrote to the unmapped column of a matrix, where every bucket past the axis goes, or
    to a row that is hidden in it. -/
def isStray (m : Matrix) (o : Outcome) : Bool :=
  o.entered?.any fun e =>
    min e.bucket m.columns.unmapped = m.columns.unmapped || m.visible? e.row = some false

/-- The mark of an outcome tells whether its row is hidden. -/
def MarksHidden (m : Matrix) : Outcome → Prop
  | .recorded row _ _ _ unlisted => decide (m.visible? row = some false) = unlisted
  | .degenerate row _ _ => m.visible? row ≠ some false
  | .skipped _ => True

theorem MarksHidden.isMarked_eq_isStray {m : Matrix} {o : Outcome} (h : MarksHidden m o) :
    o.isMarked m.columns = o.isStray m := by
  cases o with
  | recorded row bucket value missed unlisted =>
      show (m.columns.isUnmapped bucket || unlisted) = (_ || decide (m.visible? row = some false))
      rw [Axis.isUnmapped_eq, ← h]
  | degenerate row bucket reason =>
      show m.columns.isUnmapped bucket = (_ || decide (m.visible? row = some false))
      rw [Axis.isUnmapped_eq, decide_eq_false h, Bool.or_false]
  | skipped reason => rfl

end Outcome

namespace Variant

/-- The outline that a miner leaves behind makes the marks right. -/
theorem Form.marksHidden {v : Variant} {set : String} {o : Outcome} {m : Matrix} (h : Form set v o)
    (hcounter : v = .counter → m.AllShown)
    (hsyscall : v = .syscall → m.WellFormed v.columns ∧ m.outline = Syscall.setOutline set) :
    o.MarksHidden m := by
  cases h with
  | counterRecorded r value missed => exact decide_eq_false ((hcounter rfl).visible?_ne _)
  | counterDegenerate r reason => exact (hcounter rfl).visible?_ne _
  | counterEmpty => trivial
  | counterFault fault => trivial
  | syscallSkipped reason => trivial
  | syscallRecorded instances threads value missed =>
      obtain ⟨hm, houtline⟩ := hsyscall rfl
      show decide (m.visible? _ = some false) = Syscall.isUnlisted instances
      rw [Matrix.visible?_rowOf hm houtline]
      cases Syscall.isUnlisted instances <;> rfl

/-- How many of the sections of a log come to an outcome of some kind. -/
def count (v : Variant) (set : String) (log : List String) (kind : Outcome → Bool) : Nat :=
  (v.sections log).countP fun s => (v.mine? set log s).any kind

theorem count_eq_countP (v : Variant) (set : String) (log : List String) (kind : Outcome → Bool) :
    v.count set log kind = (v.results set log).countP kind := by
  rw [results_eq_filterMap, List.countP_filterMap, count]
  refine List.countP_congr fun s _ => ?_
  cases v.mine? set log s <;> simp

end Variant

/-! ## The summary of a log -/

namespace Miner

/-- The outcomes of a log are counted as stray if and only if they are, in the tables that a miner of any
    logs has after one more. -/
theorem isMarked_eq_isStray (v : Variant) (set : String) (logs : List (List String))
    {log : List String} {o : Outcome} (ho : o ∈ v.results set log) :
    let after := ((Miner.new v set).runAll logs).tables
    o.isMarked v.columns = o.isStray after.values ∧ o.isMarked v.columns = o.isStray after.missed := by
  intro after
  have hwell : after.WellFormed v.columns :=
    wellFormed_runAll (m := Miner.new v set) (v.wellFormed_freshTables set) logs
  have hreachable : Tables.Reachable v.columns after :=
    reachable_runAll (m := Miner.new v set) (v.reachable_freshTables set) logs
  have hstep : after.values.outline = after.missed.outline := hreachable.inStep.outline_eq
  have hcounter : v = .counter → after.values.AllShown := by
    rintro rfl
    exact allShown_runAll set logs
  have hsyscall : v = .syscall → after.values.outline = Syscall.setOutline set := by
    rintro rfl
    have hlists := Variant.lists_runAll (Variant.lists_freshTables set) logs
    rw [Matrix.Lists, List.flatMap_singleton] at hlists
    exact hlists
  have hform := Variant.form_of_mem_results ho
  constructor
  · rw [← hwell.values.columns_eq]
    apply Outcome.MarksHidden.isMarked_eq_isStray
    exact hform.marksHidden hcounter fun hv => ⟨hwell.values, hsyscall hv⟩
  · rw [← hwell.missed.columns_eq]
    apply Outcome.MarksHidden.isMarked_eq_isStray
    refine hform.marksHidden (fun hv row hrow => hcounter hv row ?_) fun hv => ⟨hwell.missed, ?_⟩
    · rw [hstep]
      exact hrow
    · rw [← hstep]
      exact hsyscall hv

/-- **A summary accounts for every section and every write that nobody sees.** Take a miner that was made for
    `set` and has mined any logs, and one more log, each of whose sections has one outcome. The summary of
    that log counts its sections, and how many of them were recorded, degenerate or skipped, which is all of
    them. Ambiguous are the degenerate ones and those that were skipped because no sample could be chosen;
    the counter log has none of the latter and the syscall log none of the former. Out of range are the
    sections that wrote to the unmapped column or to a row that is hidden in the tables after the log, each
    counted once, and the values and the missed counts agree in this. -/
theorem summary_accounts (v : Variant) (set : String) (logs : List (List String))
    (log : List String) :
    let miner := (Miner.new v set).runAll logs
    let summary := (miner.run log).2
    let after := (miner.run log).1.tables
    (v.sections log).map (v.mine? set log) = (v.results set log).map some
      ∧ summary.sections = (v.sections log).length
      ∧ summary.sections = summary.recorded + summary.degenerate + summary.skipped
      ∧ summary.recorded = v.count set log Outcome.isRecorded
      ∧ summary.degenerate = v.count set log Outcome.isDegenerate
      ∧ summary.skipped = v.count set log Outcome.isSkipped
      ∧ summary.ambiguous = summary.degenerate + v.count set log Outcome.isUnselected
      ∧ (match v with
          | .counter => summary.ambiguous = summary.degenerate
          | .syscall => summary.degenerate = 0)
      ∧ summary.outOfRange = v.count set log (Outcome.isStray after.values)
      ∧ summary.outOfRange = v.count set log (Outcome.isStray after.missed) := by
  intro miner summary after
  have hsections : (v.sections log).length = (v.results set log).length := by
    have hlength := congrArg List.length (v.map_mine?_sections set log)
    rw [List.length_map, List.length_map] at hlength
    exact hlength
  have hsummary : summary = (v.results set log).foldl (Summary.add v.columns) {} := by
    show ((miner.variant.results miner.set log).foldl (Summary.add miner.variant.columns) {}) = _
    rw [variant_runAll, set_runAll]
    rfl
  have hafter : after = ((Miner.new v set).runAll (logs ++ [log])).tables := by
    show (miner.run log).1.tables = _
    rw [runAll, List.foldl_concat]
    rfl
  have hstray : ∀ o ∈ v.results set log,
      o.isMarked v.columns = o.isStray after.values ∧ o.isMarked v.columns = o.isStray after.missed := by
    intro o ho
    rw [hafter]
    exact isMarked_eq_isStray v set (logs ++ [log]) ho
  have hkinds := length_eq_countP_kinds (v.results set log)
  rw [Summary.foldl_add] at hsummary
  -- The counts that are kept as they are go away here, those that take an argument are left.
  simp only [hsummary, Variant.count_eq_countP, hsections, Nat.zero_add, true_and]
  refine ⟨v.map_mine?_sections set log, hkinds, ?_, ?_, ?_⟩
  · cases v with
    | counter =>
        show _ + _ = _
        rw [Nat.add_eq_left, List.countP_eq_zero]
        intro o ho
        cases Variant.form_of_mem_results ho <;> simp [Outcome.isUnselected]
    | syscall =>
        show _ = 0
        rw [List.countP_eq_zero]
        intro o ho
        cases Variant.form_of_mem_results ho <;> simp [Outcome.isDegenerate]
  · refine List.countP_congr fun o ho => ?_
    rw [(hstray o ho).1]
  · refine List.countP_congr fun o ho => ?_
    rw [(hstray o ho).2]

end Miner

end BenchLog
