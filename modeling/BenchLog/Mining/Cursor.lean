import BenchLog.Mining.Miner
import BenchLog.Table.Indexed

/-!
# `BenchLog.Mining.Cursor` — mining by positions in the log

A section is mined as a list of its own elsewhere. Here nothing is cut out of the log: a cursor goes down it,
every search starts at the cursor and ends at a bound, and every line, record, rate and row is reached by a
position. A position may turn out to lie outside the list that it is used on, and one that lies too far down
does not fit into a word, whose largest value is `limit`. A computation that comes to either has no outcome.

## Contents
- `advance?`, a position further down; `findWithin`, the search up to a bound;
- `sectionsAt?`, the sections of a log;
- `Counter.mineAt?`, `Syscall.mineAt?`, `Variant.mineAt?`, the outcome of a section;
- `IndexedTables`, `IndexedMiner` with `new?`, `run?` and `runAll?`.
-/

namespace BenchLog

open BenchLog.Record

/-! ## Positions -/

/-- The position `n` lines further down, if it fits into a word. -/
def advance? (limit i n : Nat) : Option Nat := if i + n ≤ limit then some (i + n) else none

/-- The first line from `start` up to and including `last` that `p` accepts. The number of lines to look at
is one more than `last`, or `limit` where that does not fit. -/
def findWithin (limit : Nat) (p : String → Bool) (log : List String) (start last : Nat) : Option Nat :=
  (((log.take (min (last + 1) limit)).drop start).findIdx? p).map (· + start)

theorem findWithin_bounds {limit : Nat} {p : String → Bool} {log : List String} {start last i : Nat}
    (h : findWithin limit p log start last = some i) : start ≤ i ∧ i < log.length := by
  obtain ⟨k, hk, rfl⟩ := Option.map_eq_some_iff.1 h
  have bound := (List.findIdx?_eq_some_iff_findIdx_eq.1 hk).1
  rw [List.length_drop, List.length_take] at bound
  omega

/-! ## Sections -/

/-- The section that opens first from `start` on. -/
def locateAt? (limit : Nat) (p : String → Bool) (log : List String) (start : Nat) :
    Option (Option Section) :=
  match find p log start with
  | none => some none
  | some first =>
    (advance? limit first 1).map fun next => some ⟨first, (find p log next).getD (log.length - 1)⟩

theorem locateAt?_bounds {limit : Nat} {p : String → Bool} {log : List String} {start : Nat} {s : Section}
    (h : locateAt? limit p log start = some (some s)) : start ≤ s.first ∧ s.first < log.length := by
  unfold locateAt? at h
  split at h
  · exact nomatch h
  · next first hfirst =>
      obtain ⟨_, _, hs⟩ := Option.map_eq_some_iff.1 h
      obtain rfl := Option.some.inj hs
      exact find_bounds hfirst

/-- The sections that open from `start` on and whose span exceeds `minSpan`. -/
def sectionsAt? (limit : Nat) (p : String → Bool) (minSpan : Nat) (log : List String) (start : Nat) :
    Option (List Section) :=
  match h : locateAt? limit p log start with
  | none => none
  | some none => some []
  | some (some s) =>
    have := locateAt?_bounds h
    if s.first + 1 ≤ limit then
      (sectionsAt? limit p minSpan log (max s.last (s.first + 1))).map fun rest =>
        if minSpan < s.span then s :: rest else rest
    else none
termination_by log.length - start

/-! ## A section of the counter log -/

namespace Counter

/-- Takes up to `n` more records from the cursor on. A line that is no record is the section's fault if there
are no records before it, and otherwise ends them. -/
def collectAt? (limit : Nat) (log : List String) (last : Nat) :
    Nat → Nat → List CounterRecord → Option (Except LineError (List CounterRecord))
  | 0, _, records => some (.ok records)
  | n + 1, cursor, records =>
    match findWithin limit (Text.mentions reportWord) log cursor last with
    | none => some (.ok records)
    | some i => do
      let line ← log[i]?
      match CounterRecord.ofLine line with
      | .ok r =>
        let next ← advance? limit i 1
        collectAt? limit log last n next (records ++ [r])
      | .error fault => return if records.isEmpty then .error fault else .ok records

/-- The outcome of a section with these records. -/
def chooseAt? (records : List CounterRecord) : Option Outcome :=
  if records.isEmpty then some (.skipped .noRecords)
  else
    let rates := records.map CounterRate.ofRecord
    match (Selection.byRank id (rates.map (·.hits))).map Fin.val with
    | .ok i => do
      let chosen ← records[i]?
      let rate ← rates[i]?
      return .recorded (rowOf chosen) (bucketOf chosen) rate.hits rate.missed false
    | .error reason => do
      let first ← records[0]?
      return .degenerate (rowOf first) (bucketOf first) reason

/-- The outcome of a section of the counter log. -/
def mineAt? (limit : Nat) (log : List String) (s : Section) : Option Outcome := do
  match ← collectAt? limit log s.last Selection.sampleCount s.first [] with
  | .error fault => return .skipped (.line fault)
  | .ok records => chooseAt? records

end Counter

/-! ## A section of the syscall log -/

/-- A computation that fails with a reason to skip the section, or comes to a place that is not there. -/
abbrev Checked : Type → Type := ExceptT SkipReason Option

/-- What is at a place, if there is anything. -/
def reach {α : Type} (place : Option α) : Checked α := ExceptT.lift place

namespace Syscall

/-- The place of the two echoed lines: the first from the cursor on such that the next mention of the measured
call is at least two lines further down. -/
def echoAt? (limit : Nat) (log : List String) (last cursor : Nat) : Checked Nat :=
  match h : findWithin limit (Text.mentions syscallWord) log cursor last with
  | none => throw (.missingLine syscallWord)
  | some i =>
    have := findWithin_bounds h
    if cursor + 2 ≤ limit then
      if cursor + 2 ≤ i then pure cursor else echoAt? limit log last (cursor + 1)
    else reach none
termination_by log.length - cursor

/-- The place of the echoed lines and the thread count that they hold. -/
def threadsAt? (limit : Nat) (log : List String) (s : Section) : Checked (Nat × UInt64) := do
  let cursor ← echoAt? limit log s.last s.first
  let first ← reach log[cursor]?
  let next ← reach (advance? limit cursor 1)
  let second ← reach log[next]?
  if first.isEmpty || first ≠ second then throw (.threadMismatch first second)
  let threads ← orSkip (ThreadCount.ofLine first)
  return (cursor, threads)

/-- The position of the next line that mentions `word`, from `n` lines past the cursor on. -/
def needAt? (limit : Nat) (word : String) (log : List String) (last cursor n : Nat) : Checked Nat := do
  let start ← reach (advance? limit cursor n)
  match findWithin limit (Text.mentions word) log start last with
  | some i => return i
  | none => throw (.missingLine word)

/-- What a section records. -/
def sampleAt? (limit : Nat) (set : String) (log : List String) (s : Section) : Checked Outcome := do
  let tag ← reach log[s.first]?
  let instances ← orSkip (SectionTag.instances tag)
  let (cursor, threads) ← threadsAt? limit log s
  let i ← needAt? limit measurementWord log s.last cursor 2
  let j ← needAt? limit measurementWord log s.last i 1
  let k ← needAt? limit measurementWord log s.last j 1
  let m ← needAt? limit missedWord log s.last k 1
  let line1 ← reach log[i]?
  let first ← orSkip (Measurement.ofLine line1)
  let line2 ← reach log[j]?
  let second ← orSkip (Measurement.ofLine line2)
  let line3 ← reach log[k]?
  let third ← orSkip (Measurement.ofLine line3)
  let missedLine ← reach log[m]?
  let missed ← orSkip (Missed.ofLine missedLine)
  let rates ← orSkip (intervalRates ⟨first, second, third⟩)
  let chosen ← (Selection.middle rates).mapError SkipReason.selection
  let rate ← reach [rates.first, rates.second, rates.third][chosen.val]?
  return .recorded (rowOf set instances) (Axis.syscallThreads.bucketOf threads) rate.toUInt64 missed
    (isUnlisted instances)

/-- The outcome of a section of the syscall log. -/
def mineAt? (limit : Nat) (set : String) (log : List String) (s : Section) : Option Outcome :=
  (sampleAt? limit set log s).run.map fun
    | .ok outcome => outcome
    | .error reason => .skipped reason

end Syscall

/-- The outcome of one section. -/
def Variant.mineAt? (limit : Nat) (v : Variant) (set : String) (log : List String) (s : Section) :
    Option Outcome :=
  match v with
  | .counter => Counter.mineAt? limit log s
  | .syscall => Syscall.mineAt? limit set log s

/-! ## A miner -/

/-- The values of a table and the counts missed along with them, each with an index of its rows. -/
structure IndexedTables where
  values : Indexed
  missed : Indexed

namespace IndexedTables

/-- Makes sure that a key has a row. -/
def ensure (t : IndexedTables) (key : RowKey) : IndexedTables :=
  ⟨(t.values.position key).1, (t.missed.position key).1⟩

/-- Hides the row of a key. -/
def hide? (t : IndexedTables) (key : RowKey) : Option IndexedTables := do
  return ⟨← t.values.hide? key, ← t.missed.hide? key⟩

/-- Writes a value and its missed count to the same cell. -/
def record? (t : IndexedTables) (key : RowKey) (bucket : Nat) (value missed : UInt64) :
    Option IndexedTables := do
  return ⟨← t.values.write? key bucket value, ← t.missed.write? key bucket missed⟩

/-- Tables after an outcome. -/
def enter? (t : IndexedTables) : Outcome → Option IndexedTables
  | .recorded row bucket value missed _ => t.record? row bucket value missed
  | .degenerate row bucket _ => t.record? row bucket 0 0
  | .skipped _ => some t

/-- The tables before any log. -/
def fresh? (v : Variant) (set : String) : Option IndexedTables :=
  let empty : IndexedTables := ⟨.empty v.columns, .empty v.columns⟩
  match v with
  | .counter => some empty
  | .syscall =>
    let keys := Axis.syscallInstances.labels.map (RowKey.labelled set)
    (keys.foldl ensure empty).hide? (.labelled set Axis.otherLabel)

end IndexedTables

/-- Whether every count of a summary fits into a word. -/
def Summary.fits (limit : Nat) (s : Summary) : Bool :=
  [s.sections, s.recorded, s.degenerate, s.skipped, s.ambiguous, s.outOfRange].all (· ≤ limit)

/-- Counts one more outcome, if the counts still fit. -/
def Summary.add? (limit : Nat) (columns : Axis) (s : Summary) (o : Outcome) : Option Summary :=
  if (s.add columns o).fits limit then some (s.add columns o) else none

/-- Tables under construction, with indexes. -/
structure IndexedMiner where
  variant : Variant
  set : String
  tables : IndexedTables

namespace IndexedMiner

/-- A miner whose rows carry `set` where the kind of log labels its rows. -/
def new? (variant : Variant) (set : String) : Option IndexedMiner :=
  (IndexedTables.fresh? variant set).map fun tables => ⟨variant, set, tables⟩

/-- Mines one section. -/
def mine? (limit : Nat) (log : List String) (m : IndexedMiner × Summary) (s : Section) :
    Option (IndexedMiner × Summary) := do
  let (miner, summary) := m
  let outcome ← miner.variant.mineAt? limit miner.set log s
  let summary ← summary.add? limit miner.variant.columns outcome
  let tables ← miner.tables.enter? outcome
  return ({ miner with tables }, summary)

/-- Mines a log. -/
def run? (limit : Nat) (m : IndexedMiner) (log : List String) : Option (IndexedMiner × Summary) := do
  let sections ← sectionsAt? limit m.variant.opens m.variant.minSpan log 0
  sections.foldlM (mine? limit log) (m, {})

/-- Mines logs one after the other. -/
def runAll? (limit : Nat) (m : IndexedMiner) (logs : List (List String)) : Option IndexedMiner :=
  logs.foldlM (fun m log => (m.run? limit log).map Prod.fst) m

end IndexedMiner

/-- Tables with the indexes that belong to them. -/
def Tables.indexed (t : Tables) : IndexedTables := ⟨t.values.indexed, t.missed.indexed⟩

/-- A miner with the indexes that belong to its tables. -/
def Miner.indexed (m : Miner) : IndexedMiner := ⟨m.variant, m.set, m.tables.indexed⟩

end BenchLog
