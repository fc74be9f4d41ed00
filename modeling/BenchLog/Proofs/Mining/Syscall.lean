import BenchLog.Mining.Syscall
import BenchLog.Proofs.Axis

/-!
# `BenchLog.Proofs.Mining.Syscall` — the stages of a section of the syscall log

Mining such a section takes four steps, each of which may give the reason to skip the section: the tag, the
thread count, the four lines that are looked for, and the values that they hold. `sample_eq_stages` cuts
`sample` into these steps, so that what is said about a section can be said step by step.

## Contents
- `threadStage`, `lineStage`, `valueStage`, and `sample_eq_stages`;
- `sample_eq_ok`, what a section records when it records anything;
- `rowOf_eq`, `isUnlisted_eq`, which row the number of instances stands for.
-/

namespace BenchLog

open BenchLog.Record

section Except

variable {ε α β : Type}

theorem ok_bind (a : α) (f : α → Except ε β) : Except.ok a >>= f = f a := rfl

theorem error_bind (e : ε) (f : α → Except ε β) : Except.error e >>= f = .error e := rfl

theorem throw_eq_error (e : ε) : (throw e : Except ε α) = .error e := rfl

theorem bind_eq_ok {x : Except ε α} {f : α → Except ε β} {b : β} :
    x >>= f = .ok b ↔ ∃ a, x = .ok a ∧ f a = .ok b := by
  cases x with
  | error e => exact ⟨fun h => (nomatch h), fun ⟨_, h, _⟩ => (nomatch h)⟩
  | ok a => exact ⟨fun h => ⟨a, rfl, h⟩, fun ⟨_, ha, h⟩ => Except.ok.inj ha ▸ h⟩

end Except

namespace Syscall

/-- The thread count that two equal lines echo, and the lines after the two. -/
def threadStage (lines : List String) : Except SkipReason (UInt64 × List String) :=
  match threadLines? lines with
  | none => .error (.missingLine syscallWord)
  | some (first, second, rest) =>
    if first.isEmpty || first ≠ second then .error (.threadMismatch first second)
    else do
      let threads ← orSkip (ThreadCount.ofLine first)
      return (threads, rest)

/-- The four lines that hold the values of a section. -/
structure Sources where
  measurements : Triple String
  missed : String

/-- The first three measurement lines and the first line of a missed count behind them. -/
def lineStage (lines : List String) : Except SkipReason Sources := do
  let (line1, lines) ← need measurementWord lines
  let (line2, lines) ← need measurementWord lines
  let (line3, lines) ← need measurementWord lines
  let (missedLine, _) ← need missedWord lines
  return ⟨⟨line1, line2, line3⟩, missedLine⟩

/-- The chosen rate and the missed count that the four lines hold. -/
def valueStage (s : Sources) : Except SkipReason (UInt64 × UInt64) := do
  let first ← orSkip (Measurement.ofLine s.measurements.first)
  let second ← orSkip (Measurement.ofLine s.measurements.second)
  let third ← orSkip (Measurement.ofLine s.measurements.third)
  let missed ← orSkip (Missed.ofLine s.missed)
  let rates ← orSkip (intervalRates ⟨first, second, third⟩)
  let chosen ← (Selection.middle rates).mapError .selection
  return ((rates.get chosen).toUInt64, missed)

/-- A sample is taken in stages, and the first that fails gives the reason to skip. -/
theorem sample_eq_stages (set tag : String) (lines : List String) :
    sample set tag lines = do
      let instances ← orSkip (SectionTag.instances tag)
      let (threads, rest) ← threadStage lines
      let sources ← lineStage rest
      let (value, missed) ← valueStage sources
      return .recorded (rowOf set instances) (Axis.syscallThreads.bucketOf threads) value missed
        (isUnlisted instances) := by
  unfold sample threadStage
  cases orSkip (SectionTag.instances tag) with
  | error e => rfl
  | ok instances =>
      cases threadLines? lines with
      | none => rfl
      | some found =>
          obtain ⟨first, second, rest⟩ := found
          simp only [ok_bind, pure_bind, throw_eq_error, error_bind]
          by_cases hpair : (first.isEmpty || decide (first ≠ second)) = true
          · rw [if_pos hpair, if_pos hpair]
            rfl
          · rw [if_neg hpair, if_neg hpair]
            simp only [lineStage, valueStage, bind_assoc, pure_bind]

/-- What a section of the syscall log records comes to the row of some number of instances and the column
    of some thread count. -/
theorem sample_eq_ok {set tag : String} {lines : List String} {outcome : Outcome}
    (h : sample set tag lines = .ok outcome) :
    ∃ instances threads value missed,
      outcome = .recorded (rowOf set instances) (Axis.syscallThreads.bucketOf threads) value missed
        (isUnlisted instances) := by
  rw [sample_eq_stages] at h
  obtain ⟨instances, _, h⟩ := bind_eq_ok.1 h
  obtain ⟨⟨threads, rest⟩, _, h⟩ := bind_eq_ok.1 h
  obtain ⟨sources, _, h⟩ := bind_eq_ok.1 h
  obtain ⟨⟨value, missed⟩, _, h⟩ := bind_eq_ok.1 h
  exact ⟨instances, threads, value, missed, (Except.ok.inj h).symm⟩

/-! ## The row of a number of instances -/

/-- A listed number has a row of its own, all others share one. -/
theorem rowOf_eq (set : String) (instances : UInt64) :
    rowOf set instances
      = .labelled set (if instances ∈ Axis.syscallInstances.values then Decimal.text instances
          else Axis.otherLabel) := by
  unfold rowOf
  simp only [Axis.label?_bucketOf]
  split <;> rfl

theorem isUnlisted_eq (instances : UInt64) :
    isUnlisted instances = decide (instances ∉ Axis.syscallInstances.values) :=
  Axis.isUnmapped_bucketOf _ _

end Syscall

end BenchLog
