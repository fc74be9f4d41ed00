import BenchLog.Mining.Variant
import BenchLog.Selection
import BenchLog.Table.Pair

/-!
# `BenchLog.Mining.Outcome` — what becomes of a section

Mining a section never fails. It records a chosen sample, or records zeros because the samples are there
but none can be chosen, or skips the section for a reason.

## Contents
- `SkipReason` and its wording; `Outcome`;
- `Tables.enter`, the effect of an outcome on tables;
- `Summary`, how many sections came to what.
-/

namespace BenchLog

open BenchLog.Record

/-- Why a section was skipped. -/
inductive SkipReason where
  | noRecords
  | missingLine (word : String)
  | threadMismatch (first second : String)
  | line (error : LineError)
  | selection (error : SelectionError)
deriving DecidableEq

/-- The wording of a `SkipReason`. -/
def SkipReason.message : SkipReason → String
  | .noRecords => "no record lines in section"
  | .missingLine word => "no '" ++ word ++ "' line in section"
  | .threadMismatch first second =>
    "thread-count lines disagree: " ++ Text.quoted first ++ " vs " ++ Text.quoted second
  | .line error => error.message
  | .selection error => error.message

/-- What became of a section. -/
inductive Outcome where
  /-- A sample was chosen. `unlisted` marks a row whose number the row axis does not list. -/
  | recorded (row : RowKey) (bucket : Nat) (value missed : UInt64) (unlisted : Bool)
  /-- Samples were found and none was chosen. -/
  | degenerate (row : RowKey) (bucket : Nat) (reason : SelectionError)
  /-- Nothing was found to record. -/
  | skipped (reason : SkipReason)
deriving DecidableEq

/-- Tables after an outcome: a degenerate section counts as zero, a skipped one leaves no trace. -/
def Tables.enter (t : Tables) : Outcome → Tables
  | .recorded row bucket value missed _ => t.record row bucket value missed
  | .degenerate row bucket _ => t.record row bucket 0 0
  | .skipped _ => t

/-! ## Summaries -/

/-- How many sections of a log came to what. -/
structure Summary where
  sections : Nat := 0
  recorded : Nat := 0
  degenerate : Nat := 0
  skipped : Nat := 0
  /-- Sections of which no sample could be chosen, degenerate or skipped. -/
  ambiguous : Nat := 0
  /-- Writes to the unmapped bucket or to an unlisted row. -/
  outOfRange : Nat := 0
deriving DecidableEq, Repr

/-- Counts one more outcome over these columns. -/
def Summary.add (columns : Axis) (s : Summary) : Outcome → Summary
  | .recorded _ bucket _ _ unlisted =>
    { s with
      sections := s.sections + 1
      recorded := s.recorded + 1
      outOfRange := s.outOfRange + (columns.isUnmapped bucket || unlisted).toNat }
  | .degenerate _ bucket _ =>
    { s with
      sections := s.sections + 1
      degenerate := s.degenerate + 1
      ambiguous := s.ambiguous + 1
      outOfRange := s.outOfRange + (columns.isUnmapped bucket).toNat }
  | .skipped (.selection _) =>
    { s with
      sections := s.sections + 1
      skipped := s.skipped + 1
      ambiguous := s.ambiguous + 1 }
  | .skipped _ => { s with sections := s.sections + 1, skipped := s.skipped + 1 }

end BenchLog
