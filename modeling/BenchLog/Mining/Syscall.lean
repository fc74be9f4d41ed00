import BenchLog.Mining.Counter

/-!
# `BenchLog.Mining.Syscall` — a section of the syscall log

A section opens with its tag. The benchmark echoes its thread count on two equal lines; they are the
first two lines in a row that do not mention the measured call and are not the last to come before it is
mentioned again. Three measurements follow, and behind them the missed count. The first thing that is
not as it should be is the reason for which the section is skipped.

## Contents
- `threadLines?`, the two echoed lines and the lines after them;
- `sample`, `mineFrom`, `mine?`, the outcome of a section.
-/

namespace BenchLog

open BenchLog.Record

namespace Syscall

/-- The first two lines in a row that do not mention the measured call while a later line does, and the
lines after the two. -/
def threadLines? : List String → Option (String × String × List String)
  | first :: second :: rest =>
    if Text.mentions syscallWord first || Text.mentions syscallWord second then
      threadLines? (second :: rest)
    else if rest.any (Text.mentions syscallWord) then some (first, second, rest)
    else none
  | _ => none

/-- The next line that mentions `word`, and the lines after it. -/
def need (word : String) (lines : List String) : Except SkipReason (String × List String) :=
  match seek? word lines with
  | some found => .ok found
  | none => .error (.missingLine word)

/-- A fault of a line as the reason to skip its section. -/
def orSkip {α : Type} (r : Except LineError α) : Except SkipReason α := r.mapError .line

/-- The row of a number of instances. -/
def rowOf (set : String) (instances : UInt64) : RowKey :=
  let axis := Axis.syscallInstances
  .labelled set ((axis.label? (axis.bucketOf instances)).getD Axis.otherLabel)

/-- Whether a number of instances has no row of its own. -/
def isUnlisted (instances : UInt64) : Bool :=
  Axis.syscallInstances.isUnmapped (Axis.syscallInstances.bucketOf instances)

/-- What a section with this tag line records. -/
def sample (set tag : String) (lines : List String) : Except SkipReason Outcome := do
  let instances ← orSkip (SectionTag.instances tag)
  let (first, second, lines) ←
    match threadLines? lines with
    | some found => pure found
    | none => throw (.missingLine syscallWord)
  if first.isEmpty || first ≠ second then throw (.threadMismatch first second)
  let threads ← orSkip (ThreadCount.ofLine first)
  let (line1, lines) ← need measurementWord lines
  let (line2, lines) ← need measurementWord lines
  let (line3, lines) ← need measurementWord lines
  let (missedLine, _) ← need missedWord lines
  let first ← orSkip (Measurement.ofLine line1)
  let second ← orSkip (Measurement.ofLine line2)
  let third ← orSkip (Measurement.ofLine line3)
  let missed ← orSkip (Missed.ofLine missedLine)
  let rates ← orSkip (intervalRates ⟨first, second, third⟩)
  let chosen ← (Selection.middle rates).mapError .selection
  return .recorded (rowOf set instances) (Axis.syscallThreads.bucketOf threads)
    (rates.get chosen).toUInt64 missed (isUnlisted instances)

/-- The outcome of a section with this tag line. -/
def mineFrom (set tag : String) (lines : List String) : Outcome :=
  match sample set tag lines with
  | .ok outcome => outcome
  | .error reason => .skipped reason

/-- The outcome of a section of the syscall log, where its first line is in the log. -/
def mine? (set : String) (log : List String) (s : Section) : Option Outcome :=
  log[s.first]?.map fun tag => mineFrom set tag (s.lines log)

end Syscall

end BenchLog
