import BenchLog.Mining.Counter
import BenchLog.Proofs.Section.Positions

/-!
# `BenchLog.Proofs.Mining.Records` — the samples of a section of the counter log

Records are collected by a loop that looks for the next line with the word of a record, reads it, and stops
for one of four reasons: it has enough of them, no such line is left, the first such line is no record, or a
later one is none. Here the loop is gone: the lines with the word are picked out first, five of them are
looked at, and the records are those at the front of these up to the first line that is none. What the section
comes to is told by these records, and nothing else in the log matters.

## Contents
- `filter_eq_of_seek?`: searching step by step goes through the lines that mention the word;
- `Counter.leading`, the records at the front of some lines, `Counter.fault?`, what ends them, and
  `Counter.collect_eq`: the loop is a look at the first of those lines;
- `Counter.mine_of_nil`, `mine_of_error`, `mine_of_ok`: the outcome by the first line with the word;
- `Counter.byRank_of_length_ne`, `byRank_of_length_eq`, `choose_of_error`, `choose_of_ok`: the outcome by the
  records;
- `Counter.Decides`, one constructor for each way to an outcome, `Counter.mine_decides` and what each outcome
  tells: `Counter.mine_exact`.
-/

namespace BenchLog

open BenchLog.Record

/-- The lines that mention a word are the one that a search finds and, behind it, those among the rest. -/
theorem filter_eq_of_seek? (word : String) (lines : List String) :
    lines.filter (Text.mentions word)
      = match seek? word lines with
        | none => []
        | some (line, rest) => line :: rest.filter (Text.mentions word) := by
  induction lines with
  | nil => rfl
  | cons line lines ih =>
      unfold seek?
      by_cases hword : Text.mentions word line = true
      · rw [List.filter_cons_of_pos hword, if_pos hword]
      · rw [List.filter_cons_of_neg hword, if_neg hword, ih]

namespace Counter

/-! ## The loop as a look at some lines -/

/-- The records at the front of some lines, up to the first line that is none. -/
def leading (lines : List String) : List CounterRecord :=
  ((lines.map CounterRecord.ofLine).takeWhile (·.isOk)).filterMap (·.toOption)

/-- What is wrong with the first line that is no record. -/
def fault? (lines : List String) : Option LineError :=
  lines.findSome? fun line =>
    match CounterRecord.ofLine line with
    | .ok _ => none
    | .error fault => some fault

variable {line : String} {lines : List String} {r first : CounterRecord} {rest : List CounterRecord}
  {fault : LineError}

theorem leading_cons_of_ok (h : CounterRecord.ofLine line = .ok r) (lines : List String) :
    leading (line :: lines) = r :: leading lines := by
  unfold leading
  rw [List.map_cons, h]
  rfl

theorem leading_cons_of_error (h : CounterRecord.ofLine line = .error fault) (lines : List String) :
    leading (line :: lines) = [] := by
  unfold leading
  rw [List.map_cons, h]
  rfl

theorem fault?_cons_of_ok (h : CounterRecord.ofLine line = .ok r) (lines : List String) :
    fault? (line :: lines) = fault? lines := by
  unfold fault?
  rw [List.findSome?_cons, h]

theorem fault?_cons_of_error (h : CounterRecord.ofLine line = .error fault) (lines : List String) :
    fault? (line :: lines) = some fault := by
  unfold fault?
  rw [List.findSome?_cons, h]

/-- Collecting at most `n` records is looking at the first `n` lines that mention the word. The induction is
    on `n`, since each turn of the loop uses up one of these lines. -/
theorem collect_eq (n : Nat) (lines : List String) :
    collect n lines
      = (leading ((lines.filter (Text.mentions reportWord)).take n),
          fault? ((lines.filter (Text.mentions reportWord)).take n)) := by
  induction n generalizing lines with
  | zero => rfl
  | succ n ih =>
      unfold collect
      rw [filter_eq_of_seek? reportWord lines]
      cases seek? reportWord lines with
      | none => rfl
      | some found =>
          obtain ⟨line, rest⟩ := found
          simp only [List.take_succ_cons]
          cases hline : CounterRecord.ofLine line with
          | error fault => rw [leading_cons_of_error hline, fault?_cons_of_error hline]
          | ok r => rw [leading_cons_of_ok hline, fault?_cons_of_ok hline, ih]

/-! ## The outcome by the first line with the word -/

section Mine

variable {log : List String} {s : Section}

/-- The lines between the bounds that mention the word of a record. -/
def found (s : Section) (log : List String) : List String :=
  s.select (Text.mentions reportWord) log

theorem collect_lines (s : Section) (log : List String) :
    collect Selection.sampleCount (s.lines log)
      = (leading ((found s log).take 5), fault? ((found s log).take 5)) := by
  rw [collect_eq, s.filter_lines]
  rfl

theorem mine_of_nil (h : found s log = []) : mine log s = .skipped .noRecords := by
  unfold mine
  rw [collect_lines, h]
  rfl

theorem mine_of_error (h : found s log = line :: lines)
    (hline : CounterRecord.ofLine line = .error fault) : mine log s = .skipped (.line fault) := by
  unfold mine
  rw [collect_lines, h, List.take_succ_cons, leading_cons_of_error hline, fault?_cons_of_error hline]

theorem mine_of_ok (hrecords : leading ((found s log).take 5) = first :: rest) :
    mine log s = choose first rest := by
  unfold mine
  rw [collect_lines, hrecords]

/-- Two sections come to the same if the first five lines with the word are the same. -/
theorem mine_congr {log' : List String} {s' : Section}
    (h : (found s log).take 5 = (found s' log').take 5) : mine log s = mine log' s' := by
  unfold mine
  rw [collect_lines, collect_lines, h]

/-- The first five lines with the word make a section of their own that comes to the same. -/
theorem mine_eq_mine_take (log : List String) (s : Section) :
    mine log s = mine ((found s log).take 5) ⟨0, 4⟩ := by
  apply mine_congr
  have hlines : (⟨0, 4⟩ : Section).lines ((found s log).take 5) = (found s log).take 5 := by
    show (((found s log).take 5).drop 0).take 5 = (found s log).take 5
    rw [List.drop_zero, List.take_take, Nat.min_self]
  have hall : ((found s log).take 5).filter (Text.mentions reportWord) = (found s log).take 5 := by
    rw [List.filter_eq_self]
    intro line hline
    have hmem : line ∈ s.select (Text.mentions reportWord) log := List.mem_of_mem_take hline
    rw [← s.filter_lines] at hmem
    exact (List.mem_filter.1 hmem).2
  have hfound : found ⟨0, 4⟩ ((found s log).take 5) = (found s log).take 5 := by
    show (⟨0, 4⟩ : Section).select (Text.mentions reportWord) ((found s log).take 5) = _
    rw [← Section.filter_lines, hlines, hall]
  rw [hfound, List.take_take, Nat.min_self]

end Mine

/-! ## The outcome by the records -/

theorem byRank_of_length_ne {records : List CounterRecord} (h : records.length ≠ 5) :
    Selection.byRank hitRate records = .error (.insufficient 5 records.length) :=
  if_neg h

/-- Five samples are enough: one of them is chosen, or they are ambiguous. -/
theorem byRank_of_length_eq {records : List CounterRecord} (h : records.length = 5) :
    (∃ i, Selection.byRank hitRate records = .ok i)
      ∨ Selection.byRank hitRate records = .error (.ambiguous 5) := by
  unfold Selection.byRank
  rw [if_pos (show records.length = Selection.sampleCount from h)]
  split
  · next i _ => exact Or.inl ⟨i, rfl⟩
  · exact Or.inr (by rw [h])

theorem choose_of_error {reason : SelectionError}
    (h : Selection.byRank hitRate (first :: rest) = .error reason) :
    choose first rest = .degenerate (rowOf first) (bucketOf first) reason := by
  unfold choose
  dsimp only
  rw [h]

theorem choose_of_ok {records : List CounterRecord} {i : Fin records.length}
    (hrecords : records = first :: rest) (h : Selection.byRank hitRate records = .ok i) :
    choose first rest
      = .recorded (rowOf records[i]) (bucketOf records[i]) (CounterRate.ofRecord records[i]).hits
          (CounterRate.ofRecord records[i]).missed false := by
  subst hrecords
  unfold choose
  dsimp only
  rw [h]

/-! ## The ways to an outcome -/

/-- How the lines `found` with the word of a record and the `records` at their front decide on an outcome. -/
inductive Decides (found : List String) (records : List CounterRecord) : Outcome → Prop
  | nothing (hfound : found = []) (hnone : records = []) : Decides found records (.skipped .noRecords)
  | broken {line : String} {fault : LineError} (hline : found.head? = some line)
      (hfault : CounterRecord.ofLine line = .error fault) (hnone : records = []) :
      Decides found records (.skipped (.line fault))
  | few {line : String} {first : CounterRecord} (hline : found.head? = some line)
      (hread : CounterRecord.ofLine line = .ok first)
      (hfirst : records.head? = some first) (hfew : records.length < 5) :
      Decides found records
        (.degenerate (rowOf first) (bucketOf first) (.insufficient 5 records.length))
  | tied {line : String} {first : CounterRecord} (hline : found.head? = some line)
      (hread : CounterRecord.ofLine line = .ok first)
      (hfirst : records.head? = some first) (hfive : records.length = 5)
      (htied : Selection.byRank hitRate records = .error (.ambiguous 5)) :
      Decides found records (.degenerate (rowOf first) (bucketOf first) (.ambiguous 5))
  | chosen {line : String} {first : CounterRecord} {i : Fin records.length}
      (hline : found.head? = some line)
      (hread : CounterRecord.ofLine line = .ok first) (hfive : records.length = 5)
      (hchosen : Selection.byRank hitRate records = .ok i) :
      Decides found records
        (.recorded (rowOf records[i]) (bucketOf records[i]) (CounterRate.ofRecord records[i]).hits
          (CounterRate.ofRecord records[i]).missed false)

theorem length_leading_le (lines : List String) : (leading lines).length ≤ lines.length := by
  unfold leading
  calc (((lines.map CounterRecord.ofLine).takeWhile (·.isOk)).filterMap (·.toOption)).length
      ≤ ((lines.map CounterRecord.ofLine).takeWhile (·.isOk)).length := List.length_filterMap_le _ _
    _ ≤ (lines.map CounterRecord.ofLine).length := (List.takeWhile_sublist _).length_le
    _ = lines.length := List.length_map _

theorem mine_decides (log : List String) (s : Section) :
    Decides (found s log) (leading ((found s log).take 5)) (mine log s) := by
  cases hfound : found s log with
  | nil =>
      rw [mine_of_nil hfound]
      exact .nothing rfl rfl
  | cons line lines =>
      cases hline : CounterRecord.ofLine line with
      | error fault =>
          rw [mine_of_error hfound hline]
          exact .broken rfl hline (leading_cons_of_error hline _)
      | ok first =>
          have hrecords : leading ((line :: lines).take 5) = first :: leading (lines.take 4) :=
            leading_cons_of_ok hline _
          have hfew : (first :: leading (lines.take 4)).length ≤ 5 := by
            rw [← hrecords]
            exact Nat.le_trans (length_leading_le _) (List.length_take_le _ _)
          rw [mine_of_ok (hfound ▸ hrecords), hrecords]
          by_cases hfive : (first :: leading (lines.take 4)).length = 5
          · obtain ⟨i, hchosen⟩ | htied := byRank_of_length_eq hfive
            · rw [choose_of_ok rfl hchosen]
              exact .chosen rfl hline hfive hchosen
            · rw [choose_of_error htied]
              exact .tied rfl hline rfl hfive htied
          · rw [choose_of_error (byRank_of_length_ne hfive)]
            exact .few rfl hline rfl (by omega)

namespace Decides

variable {lines : List String} {records : List CounterRecord} {outcome : Outcome}

theorem eq_noRecords_iff (h : Decides lines records outcome) :
    outcome = .skipped .noRecords ↔ lines = [] := by
  cases h with
  | nothing hfound _ => simp [hfound]
  | broken hline _ _ | few hline _ _ _ | tied hline _ _ _ _ | chosen hline _ _ _ =>
      have hsome : lines ≠ [] := by
        rintro rfl
        exact nomatch hline
      simp [hsome]

theorem eq_line_iff (h : Decides lines records outcome) (fault : LineError) :
    outcome = .skipped (.line fault)
      ↔ ∃ line, lines.head? = some line ∧ CounterRecord.ofLine line = .error fault := by
  cases h with
  | nothing hfound _ => simp [hfound]
  | broken hline hfault _ => simp [hline, hfault]
  | few hline hread _ _ | tied hline hread _ _ _ | chosen hline hread _ _ => simp [hline, hread]

theorem eq_insufficient_iff (h : Decides lines records outcome) (row : RowKey)
    (bucket expected n : Nat) :
    outcome = .degenerate row bucket (.insufficient expected n)
      ↔ expected = 5 ∧ n = records.length ∧ n < 5
        ∧ ∃ first, records.head? = some first ∧ row = rowOf first ∧ bucket = bucketOf first := by
  cases h with
  | nothing _ hnone | broken _ _ hnone => simp [hnone]
  | few _ _ hfirst hfew =>
      constructor
      · intro heq
        obtain ⟨rfl, rfl, hreason⟩ := Outcome.degenerate.inj heq
        obtain ⟨rfl, rfl⟩ := SelectionError.insufficient.inj hreason
        exact ⟨rfl, rfl, hfew, _, hfirst, rfl, rfl⟩
      · rintro ⟨rfl, rfl, _, first', hfirst', rfl, rfl⟩
        rw [Option.some.inj (hfirst.symm.trans hfirst')]
  | tied _ _ _ hfive _ | chosen _ _ hfive _ =>
      have hmany : ¬(n = records.length ∧ n < 5) := by omega
      constructor
      · intro heq
        simp at heq
      · rintro ⟨_, hlength, hfew, _⟩
        exact absurd ⟨hlength, hfew⟩ hmany

theorem eq_ambiguous_iff (h : Decides lines records outcome) (row : RowKey) (bucket n : Nat) :
    outcome = .degenerate row bucket (.ambiguous n)
      ↔ records.length = 5 ∧ Selection.byRank hitRate records = .error (.ambiguous n)
        ∧ ∃ first, records.head? = some first ∧ row = rowOf first ∧ bucket = bucketOf first := by
  cases h with
  | nothing _ hnone | broken _ _ hnone => simp [hnone]
  | few _ _ _ hfew =>
      have hnot : records.length ≠ 5 := by omega
      simp [hnot]
  | tied _ _ hfirst hfive htied =>
      constructor
      · intro heq
        obtain ⟨rfl, rfl, hreason⟩ := Outcome.degenerate.inj heq
        rw [← hreason]
        exact ⟨hfive, htied, _, hfirst, rfl, rfl⟩
      · rintro ⟨_, htied', first', hfirst', rfl, rfl⟩
        rw [Except.error.inj (htied.symm.trans htied')]
        rw [Option.some.inj (hfirst.symm.trans hfirst')]
  | chosen _ _ _ hchosen => simp [hchosen]

theorem eq_recorded_iff (h : Decides lines records outcome) (row : RowKey) (bucket : Nat)
    (value missed : UInt64) (unlisted : Bool) :
    outcome = .recorded row bucket value missed unlisted
      ↔ records.length = 5 ∧ ∃ i, Selection.byRank hitRate records = .ok i
        ∧ row = rowOf records[i] ∧ bucket = bucketOf records[i]
        ∧ value = (CounterRate.ofRecord records[i]).hits
        ∧ missed = (CounterRate.ofRecord records[i]).missed ∧ unlisted = false := by
  cases h with
  | nothing _ hnone | broken _ _ hnone => simp [hnone]
  | few _ _ _ hfew =>
      have hnot : records.length ≠ 5 := by omega
      simp [hnot]
  | tied _ _ _ _ htied => simp [htied]
  | chosen _ _ hfive hchosen =>
      constructor
      · intro heq
        obtain ⟨rfl, rfl, rfl, rfl, rfl⟩ := Outcome.recorded.inj heq
        exact ⟨hfive, _, hchosen, rfl, rfl, rfl, rfl, rfl⟩
      · rintro ⟨_, j, hchosen', rfl, rfl, rfl, rfl, rfl⟩
        rw [Except.ok.inj (hchosen.symm.trans hchosen')]

theorem length_eq_five_iff (h : Decides lines records outcome) :
    records.length = 5
      ↔ (∃ row bucket value missed unlisted, outcome = .recorded row bucket value missed unlisted)
        ∨ ∃ row bucket, outcome = .degenerate row bucket (.ambiguous 5) := by
  cases h with
  | nothing _ hnone | broken _ _ hnone => simp [hnone]
  | few _ _ _ hfew =>
      have hnot : records.length ≠ 5 := by omega
      simp [hnot]
  | tied _ _ _ hfive _ => exact iff_of_true hfive (Or.inr ⟨_, _, rfl⟩)
  | chosen _ _ hfive _ => exact iff_of_true hfive (Or.inl ⟨_, _, _, _, _, rfl⟩)

end Decides

/-- **The exact outcome of a section of the counter log**, whatever its bounds. `found` are the lines between
    them with the word of a record, and `records` is the longest run of records at the front of the first five
    of these. -/
theorem mine_exact (log : List String) (s : Section) :
    let found := s.select (Text.mentions reportWord) log
    let records := leading (found.take 5)
    (mine log s = .skipped .noRecords ↔ found = [])
      ∧ (∀ fault, mine log s = .skipped (.line fault)
          ↔ ∃ line, found.head? = some line ∧ CounterRecord.ofLine line = .error fault)
      ∧ (∀ row bucket expected n, mine log s = .degenerate row bucket (.insufficient expected n)
          ↔ expected = 5 ∧ n = records.length ∧ n < 5
            ∧ ∃ first, records.head? = some first ∧ row = rowOf first ∧ bucket = bucketOf first)
      ∧ (∀ row bucket n, mine log s = .degenerate row bucket (.ambiguous n)
          ↔ records.length = 5 ∧ Selection.byRank hitRate records = .error (.ambiguous n)
            ∧ ∃ first, records.head? = some first ∧ row = rowOf first ∧ bucket = bucketOf first)
      ∧ (∀ row bucket value missed unlisted, mine log s = .recorded row bucket value missed unlisted
          ↔ records.length = 5 ∧ ∃ i, Selection.byRank hitRate records = .ok i
            ∧ row = rowOf records[i] ∧ bucket = bucketOf records[i]
            ∧ value = (CounterRate.ofRecord records[i]).hits
            ∧ missed = (CounterRate.ofRecord records[i]).missed ∧ unlisted = false)
      ∧ (records.length = 5
          ↔ (∃ row bucket value missed unlisted,
              mine log s = .recorded row bucket value missed unlisted)
            ∨ ∃ row bucket, mine log s = .degenerate row bucket (.ambiguous 5))
      ∧ mine log s = mine (found.take 5) ⟨0, 4⟩ := by
  intro found records
  have h : Decides found records (mine log s) := mine_decides log s
  exact ⟨h.eq_noRecords_iff, h.eq_line_iff, h.eq_insufficient_iff, h.eq_ambiguous_iff, h.eq_recorded_iff,
    h.length_eq_five_iff, mine_eq_mine_take log s⟩

end Counter

end BenchLog
