import BenchLog.Mining.Outcome
import BenchLog.Rate

/-!
# `BenchLog.Mining.Counter` — a section of the counter log

The first five records of a section are its samples. Lines that are no records do not matter; the first
line that looks like one and is not ends the samples, and is the section's fault only if it is the first
of all. The sample is chosen by its rate of hits, and everything that is recorded comes from it.

## Contents
- `collect`, the records at the front of some lines;
- `Counter.mine`, the outcome of a section.
-/

namespace BenchLog

open BenchLog.Record

/-- The first line that mentions `word`, and the lines after it. -/
def seek? (word : String) : List String → Option (String × List String)
  | [] => none
  | line :: lines => if Text.mentions word line then some (line, lines) else seek? word lines

namespace Counter

/-- At most `n` records from some lines, and what was wrong with the line that ended them early. -/
def collect : Nat → List String → List CounterRecord × Option LineError
  | 0, _ => ([], none)
  | n + 1, lines =>
    match seek? reportWord lines with
    | none => ([], none)
    | some (line, rest) =>
      match CounterRecord.ofLine line with
      | .error e => ([], some e)
      | .ok r =>
        let (records, fault) := collect n rest
        (r :: records, fault)

/-- The row of a record. -/
def rowOf (r : CounterRecord) : RowKey := .scenario r.tag r.max r.a r.b

/-- The column of a record. -/
def bucketOf (r : CounterRecord) : Nat := Axis.counterThreads.bucketOf r.threads

/-- The rate by which a record is chosen. -/
def hitRate (r : CounterRecord) : UInt64 := (CounterRate.ofRecord r).hits

/-- The outcome of a section with these records, of which there is at least one. -/
def choose (first : CounterRecord) (rest : List CounterRecord) : Outcome :=
  let records := first :: rest
  match Selection.byRank hitRate records with
  | .ok i =>
    let chosen := records[i]
    let rate := CounterRate.ofRecord chosen
    .recorded (rowOf chosen) (bucketOf chosen) rate.hits rate.missed false
  | .error reason => .degenerate (rowOf first) (bucketOf first) reason

/-- The outcome of a section of the counter log. -/
def mine (log : List String) (s : Section) : Outcome :=
  match collect Selection.sampleCount (s.lines log) with
  | ([], none) => .skipped .noRecords
  | ([], some fault) => .skipped (.line fault)
  | (first :: rest, _) => choose first rest

end Counter

end BenchLog
