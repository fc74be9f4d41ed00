import BenchLog.Proofs.Mining.Searches
import BenchLog.Proofs.Mining.Syscall
import BenchLog.Proofs.Rate

/-!
# `BenchLog.Proofs.Mining.Steps` — a section of the syscall log, step by step

What becomes of a section of the syscall log is decided in five steps: its tag is read, the echoed thread count
is found and read, the lines that hold its values are found, they are read, and their rates are compared. Each
step is a relation here. It says, by positions in the log, what the step delivers or for which reason it fails,
with one constructor for each way to end. `Runs` puts the steps one behind the other: the first that fails
gives the reason, and where none fails there is a reading.

For every step there are two laws. If the relation gives a result, so does the stage of the program (`eq`); and
the relation gives some result wherever there is a line to start from (`exists`). Together they say that the
relation and the program come to the same, and that no section is left out.

## Contents
- `TagStep`, `ThreadStep`, `LineStep`, `ReadStep`, `RateStep` with their two laws each;
- `rateStep_ok_iff` and `rateStep_error_iff`, the last step by the intervals and their rates;
- `Reading`, `Runs`, `exists_runs`, `sample_of_runs`: all steps;
- `mine?_eq_some_iff` and `mine?_exact`, the outcome.
-/

namespace BenchLog

open BenchLog.Record

namespace Syscall

variable {log : List String} {s : Section} {tag : String}

theorem orSkip_ok {α : Type} (a : α) : orSkip (.ok a) = .ok a := rfl

theorem orSkip_error {α : Type} (fault : LineError) :
    orSkip (.error fault : Except LineError α) = .error (.line fault) := rfl

/-! ## The tag -/

/-- Reads the number of instances from the line that opens the section. -/
inductive TagStep (log : List String) (s : Section) : Except SkipReason UInt64 → Prop
  | read {tag : String} {instances : UInt64} (hline : log[s.first]? = some tag)
      (hread : SectionTag.instances tag = .ok instances) : TagStep log s (.ok instances)
  | broken {tag : String} {fault : LineError} (hline : log[s.first]? = some tag)
      (hread : SectionTag.instances tag = .error fault) : TagStep log s (.error (.line fault))

theorem TagStep.eq {r : Except SkipReason UInt64} (h : TagStep log s r)
    (htag : log[s.first]? = some tag) : orSkip (SectionTag.instances tag) = r := by
  cases h with
  | read hline hread =>
      obtain rfl := Option.some.inj (hline.symm.trans htag)
      rw [hread, orSkip_ok]
  | broken hline hread =>
      obtain rfl := Option.some.inj (hline.symm.trans htag)
      rw [hread, orSkip_error]

theorem exists_tagStep (htag : log[s.first]? = some tag) : ∃ r, TagStep log s r := by
  cases hread : SectionTag.instances tag with
  | ok instances => exact ⟨_, .read htag hread⟩
  | error fault => exact ⟨_, .broken htag hread⟩

/-! ## The thread count -/

/-- Finds the place of the echoed lines and reads the thread count that both of them hold. -/
inductive ThreadStep (log : List String) (s : Section) : Except SkipReason (Nat × UInt64) → Prop
  | missing (hnone : ∀ c, ¬EchoAt log s c) : ThreadStep log s (.error (.missingLine syscallWord))
  | mismatch {c : Nat} {first second : String} (hplace : FirstEcho log s c)
      (hfirst : log[c]? = some first) (hsecond : log[c + 1]? = some second)
      (hpair : first = "" ∨ first ≠ second) :
      ThreadStep log s (.error (.threadMismatch first second))
  | broken {c : Nat} {line : String} {cause : Decimal.NumeralError} (hplace : FirstEcho log s c)
      (hfirst : log[c]? = some line) (hsecond : log[c + 1]? = some line) (hsome : line ≠ "")
      (hread : Decimal.read (Text.trim line.toList) = .error cause) :
      ThreadStep log s
        (.error (.line (.integer .threads (String.ofList (Text.trim line.toList)) cause)))
  | counted {c : Nat} {line : String} {threads : UInt64} (hplace : FirstEcho log s c)
      (hfirst : log[c]? = some line) (hsecond : log[c + 1]? = some line) (hsome : line ≠ "")
      (hread : Decimal.read (Text.trim line.toList) = .ok threads) :
      ThreadStep log s (.ok (c, threads))

theorem ThreadStep.eq {r : Except SkipReason (Nat × UInt64)} (h : ThreadStep log s r) :
    threadStage (s.lines log)
      = r.map fun (c, threads) => (threads, (⟨c + 2, s.last⟩ : Section).lines log) := by
  unfold threadStage
  cases h with
  | missing hnone =>
      rw [threadLines?_of_none hnone]
      rfl
  | @mismatch c first second hplace hfirst hsecond hpair =>
      have hpair : (first.isEmpty || first ≠ second) = true := by
        rw [Bool.or_eq_true, String.isEmpty_iff, decide_eq_true_eq]
        exact hpair
      rw [threadLines?_of_firstEcho hplace hfirst hsecond]
      simp only [if_pos hpair]
      rfl
  | @broken c line _ hplace hfirst hsecond hsome hread
  | @counted c line _ hplace hfirst hsecond hsome hread =>
      have hpair : ¬(line.isEmpty || line ≠ line) = true := by
        rw [Bool.or_eq_true, String.isEmpty_iff, decide_eq_true_eq]
        exact not_or.2 ⟨hsome, fun hne => hne rfl⟩
      rw [threadLines?_of_firstEcho hplace hfirst hsecond]
      simp only [if_neg hpair, ThreadCount.ofLine, readField, hread]
      rfl

theorem exists_threadStep (log : List String) (s : Section) : ∃ r, ThreadStep log s r := by
  by_cases hplace : ∃ c, EchoAt log s c
  · obtain ⟨c, hecho⟩ := hplace
    obtain ⟨c, hplace⟩ := hecho.exists_firstEcho
    obtain ⟨first, second, hfirst, hsecond⟩ := hplace.echo.exists_lines
    by_cases hpair : first = "" ∨ first ≠ second
    · exact ⟨_, .mismatch hplace hfirst hsecond hpair⟩
    · obtain ⟨hsome, heq⟩ := not_or.1 hpair
      obtain rfl : first = second := not_not.1 heq
      cases hread : Decimal.read (Text.trim first.toList) with
      | error cause => exact ⟨_, .broken hplace hfirst hsecond hsome hread⟩
      | ok threads => exact ⟨_, .counted hplace hfirst hsecond hsome hread⟩
  · exact ⟨_, .missing (not_exists.1 hplace)⟩

/-! ## The lines with the values -/

/-- Finds the first three measurement lines and the first missed count behind them. -/
inductive LineStep (log : List String) (s : Section) : Except SkipReason Sources → Prop
  | few (hfew : ∀ i j k, ¬s.FirstThree (Text.mentions measurementWord) log i j k) :
      LineStep log s (.error (.missingLine measurementWord))
  | uncounted {i j k : Nat} (hthree : s.FirstThree (Text.mentions measurementWord) log i j k)
      (hnone : ∀ m, ¬(⟨k + 1, s.last⟩ : Section).First (Text.mentions missedWord) log m) :
      LineStep log s (.error (.missingLine missedWord))
  | found {i j k m : Nat} {line1 line2 line3 missedLine : String}
      (hthree : s.FirstThree (Text.mentions measurementWord) log i j k)
      (hmissed : (⟨k + 1, s.last⟩ : Section).First (Text.mentions missedWord) log m)
      (hline1 : log[i]? = some line1) (hline2 : log[j]? = some line2)
      (hline3 : log[k]? = some line3) (hline : log[m]? = some missedLine) :
      LineStep log s (.ok ⟨⟨line1, line2, line3⟩, missedLine⟩)

theorem LineStep.eq {r : Except SkipReason Sources} (h : LineStep log s r) :
    lineStage (s.lines log) = r := by
  unfold lineStage
  cases h with
  | few hfew =>
      -- One of the three searches finds nothing, since what three of them find are the first three.
      obtain ⟨i, line1, h1, hneed1⟩ | hneed1 := need_cases measurementWord log s
      · obtain ⟨j, line2, h2, hneed2⟩ | hneed2 := need_cases measurementWord log ⟨i + 1, s.last⟩
        · obtain ⟨k, line3, h3, _⟩ | hneed3 := need_cases measurementWord log ⟨j + 1, s.last⟩
          · exact absurd (Section.firstThree_iff.2 ⟨h1, h2, h3⟩) (hfew i j k)
          · simp only [hneed1, hneed2, hneed3, ok_bind, error_bind]
        · simp only [hneed1, hneed2, ok_bind, error_bind]
      · rw [hneed1, error_bind]
  | uncounted hthree hnone =>
      obtain ⟨h1, h2, h3⟩ := Section.firstThree_iff.1 hthree
      obtain ⟨line1, hline1⟩ := h1.accepts.exists_line
      obtain ⟨line2, hline2⟩ := h2.accepts.exists_line
      obtain ⟨line3, hline3⟩ := h3.accepts.exists_line
      simp only [need_of_first h1 hline1, need_of_first h2 hline2, need_of_first h3 hline3,
        need_of_none hnone, ok_bind, error_bind]
  | found hthree hmissed hline1 hline2 hline3 hline =>
      obtain ⟨h1, h2, h3⟩ := Section.firstThree_iff.1 hthree
      simp only [need_of_first h1 hline1, need_of_first h2 hline2, need_of_first h3 hline3,
        need_of_first hmissed hline, ok_bind]
      rfl

theorem exists_lineStep (log : List String) (s : Section) : ∃ r, LineStep log s r := by
  by_cases hthree : ∃ i j k, s.FirstThree (Text.mentions measurementWord) log i j k
  · obtain ⟨i, j, k, hthree⟩ := hthree
    obtain ⟨line1, hline1⟩ := hthree.accepts.1.exists_line
    obtain ⟨line2, hline2⟩ := hthree.accepts.2.1.exists_line
    obtain ⟨line3, hline3⟩ := hthree.accepts.2.2.exists_line
    by_cases hmissed : ∃ m, (⟨k + 1, s.last⟩ : Section).First (Text.mentions missedWord) log m
    · obtain ⟨m, hmissed⟩ := hmissed
      obtain ⟨line, hline⟩ := hmissed.accepts.exists_line
      exact ⟨_, .found hthree hmissed hline1 hline2 hline3 hline⟩
    · exact ⟨_, .uncounted hthree (not_exists.1 hmissed)⟩
  · exact ⟨_, .few fun i j k h => hthree ⟨i, j, k, h⟩⟩

/-! ## The values -/

/-- Reads the three measurements and then the missed count. -/
inductive ReadStep (x : Sources) : Except SkipReason (Triple Measurement × UInt64) → Prop
  | first {fault : LineError} (hread : Measurement.ofLine x.measurements.first = .error fault) :
      ReadStep x (.error (.line fault))
  | second {m1 : Measurement} {fault : LineError}
      (hread1 : Measurement.ofLine x.measurements.first = .ok m1)
      (hread : Measurement.ofLine x.measurements.second = .error fault) :
      ReadStep x (.error (.line fault))
  | third {m1 m2 : Measurement} {fault : LineError}
      (hread1 : Measurement.ofLine x.measurements.first = .ok m1)
      (hread2 : Measurement.ofLine x.measurements.second = .ok m2)
      (hread : Measurement.ofLine x.measurements.third = .error fault) :
      ReadStep x (.error (.line fault))
  | missed {m1 m2 m3 : Measurement} {fault : LineError}
      (hread1 : Measurement.ofLine x.measurements.first = .ok m1)
      (hread2 : Measurement.ofLine x.measurements.second = .ok m2)
      (hread3 : Measurement.ofLine x.measurements.third = .ok m3)
      (hread : Missed.ofLine x.missed = .error fault) :
      ReadStep x (.error (.line fault))
  | read {m1 m2 m3 : Measurement} {missed : UInt64}
      (hread1 : Measurement.ofLine x.measurements.first = .ok m1)
      (hread2 : Measurement.ofLine x.measurements.second = .ok m2)
      (hread3 : Measurement.ofLine x.measurements.third = .ok m3)
      (hread : Missed.ofLine x.missed = .ok missed) :
      ReadStep x (.ok (⟨m1, m2, m3⟩, missed))

/-- The part of `valueStage` that reads. -/
def readStage (x : Sources) : Except SkipReason (Triple Measurement × UInt64) := do
  let first ← orSkip (Measurement.ofLine x.measurements.first)
  let second ← orSkip (Measurement.ofLine x.measurements.second)
  let third ← orSkip (Measurement.ofLine x.measurements.third)
  let missed ← orSkip (Missed.ofLine x.missed)
  return (⟨first, second, third⟩, missed)

theorem ReadStep.eq {r : Except SkipReason (Triple Measurement × UInt64)} (h : ReadStep x r) :
    readStage x = r := by
  unfold readStage
  cases h with
  | first hread =>
      rw [hread]
      rfl
  | second hread1 hread =>
      rw [hread1, hread]
      rfl
  | third hread1 hread2 hread =>
      rw [hread1, hread2, hread]
      rfl
  | missed hread1 hread2 hread3 hread | read hread1 hread2 hread3 hread =>
      rw [hread1, hread2, hread3, hread]
      rfl

theorem exists_readStep (x : Sources) : ∃ r, ReadStep x r := by
  cases hread1 : Measurement.ofLine x.measurements.first with
  | error fault => exact ⟨_, .first hread1⟩
  | ok m1 =>
      cases hread2 : Measurement.ofLine x.measurements.second with
      | error fault => exact ⟨_, .second hread1 hread2⟩
      | ok m2 =>
          cases hread3 : Measurement.ofLine x.measurements.third with
          | error fault => exact ⟨_, .third hread1 hread2 hread3⟩
          | ok m3 =>
              cases hread : Missed.ofLine x.missed with
              | error fault => exact ⟨_, .missed hread1 hread2 hread3 hread⟩
              | ok missed => exact ⟨_, .read hread1 hread2 hread3 hread⟩

/-- Takes the rates of the three intervals and the one of them that lies between the others, rounded down. -/
inductive RateStep (ms : Triple Measurement) : Except SkipReason UInt64 → Prop
  | interval {fault : LineError} (hrates : intervalRates ms = .error fault) :
      RateStep ms (.error (.line fault))
  | tied {rates : Triple Float} {reason : SelectionError} (hrates : intervalRates ms = .ok rates)
      (hmiddle : Selection.middle rates = .error reason) : RateStep ms (.error (.selection reason))
  | chosen {rates : Triple Float} {i : Fin 3} (hrates : intervalRates ms = .ok rates)
      (hmiddle : Selection.middle rates = .ok i) : RateStep ms (.ok (rates.get i).toUInt64)

/-- The part of `valueStage` that compares. -/
def rateStage (ms : Triple Measurement) : Except SkipReason UInt64 := do
  let rates ← orSkip (intervalRates ms)
  let chosen ← (Selection.middle rates).mapError .selection
  return (rates.get chosen).toUInt64

theorem RateStep.eq {ms : Triple Measurement} {r : Except SkipReason UInt64} (h : RateStep ms r) :
    rateStage ms = r := by
  unfold rateStage
  cases h with
  | interval hrates =>
      rw [hrates]
      rfl
  | tied hrates hmiddle | chosen hrates hmiddle =>
      rw [hrates, orSkip_ok, ok_bind, hmiddle]
      rfl

theorem exists_rateStep (ms : Triple Measurement) : ∃ r, RateStep ms r := by
  cases hrates : intervalRates ms with
  | error fault => exact ⟨_, .interval hrates⟩
  | ok rates =>
      cases hmiddle : Selection.middle rates with
      | error reason => exact ⟨_, .tied hrates hmiddle⟩
      | ok i => exact ⟨_, .chosen hrates hmiddle⟩

/-- What is recorded is the middle one of three counts, each per ten seconds of its own interval. -/
theorem rateStep_ok_iff {ms : Triple Measurement} {value : UInt64} :
    RateStep ms (.ok value)
      ↔ (∀ i, 0 < intervalSeconds ms i)
        ∧ ∃ i, Selection.middle (.ofFn (measuredRate ms)) = .ok i
          ∧ value = (measuredRate ms i).toUInt64 := by
  constructor
  · rintro (_ | _ | ⟨hrates, hmiddle⟩)
    obtain ⟨hpos, rfl⟩ := intervalRates_eq_ok_iff.1 hrates
    exact ⟨hpos, _, hmiddle, by rw [Triple.get_ofFn]⟩
  · rintro ⟨hpos, i, hmiddle, rfl⟩
    rw [← Triple.get_ofFn (measuredRate ms) i]
    exact .chosen (intervalRates_eq_ok_iff.2 ⟨hpos, rfl⟩) hmiddle

/-- Nothing is recorded where an interval does not last longer than nothing, the first such interval being
    the reason, or where no rate lies between the others. -/
theorem rateStep_error_iff {ms : Triple Measurement} {reason : SkipReason} :
    RateStep ms (.error reason)
      ↔ (∃ i, (∀ j < i, 0 < intervalSeconds ms j) ∧ ¬0 < intervalSeconds ms i
          ∧ reason = .line (.nonPositiveInterval i (intervalSeconds ms i)))
        ∨ (∀ i, 0 < intervalSeconds ms i)
          ∧ ∃ tied, Selection.middle (.ofFn (measuredRate ms)) = .error tied
            ∧ reason = .selection tied := by
  constructor
  · intro h
    cases h with
    | interval hrates =>
        obtain ⟨i, hbefore, hi, rfl⟩ := intervalRates_eq_error_iff.1 hrates
        exact Or.inl ⟨i, hbefore, hi, rfl⟩
    | tied hrates hmiddle =>
        obtain ⟨hpos, rfl⟩ := intervalRates_eq_ok_iff.1 hrates
        exact Or.inr ⟨hpos, _, hmiddle, rfl⟩
  · rintro (⟨i, hbefore, hi, rfl⟩ | ⟨hpos, tied, hmiddle, rfl⟩)
    · exact .interval (intervalRates_eq_error_iff.2 ⟨i, hbefore, hi, rfl⟩)
    · exact .tied (intervalRates_eq_ok_iff.2 ⟨hpos, rfl⟩) hmiddle

theorem valueStage_eq (x : Sources) :
    valueStage x = do
      let (ms, missed) ← readStage x
      let value ← rateStage ms
      return (value, missed) := by
  simp only [valueStage, readStage, rateStage, bind_assoc, pure_bind]

/-! ## All steps -/

/-- What the steps of a section read. -/
structure Reading where
  instances : UInt64
  threads : UInt64
  value : UInt64
  missed : UInt64
deriving DecidableEq, Repr

/-- The steps of a section, one behind the other, up to the first that fails. -/
inductive Runs (log : List String) (s : Section) : Except SkipReason Reading → Prop
  | tag {reason : SkipReason} (hfails : TagStep log s (.error reason)) : Runs log s (.error reason)
  | threads {instances : UInt64} {reason : SkipReason} (htag : TagStep log s (.ok instances))
      (hfails : ThreadStep log s (.error reason)) : Runs log s (.error reason)
  | lines {instances threads : UInt64} {c : Nat} {reason : SkipReason}
      (htag : TagStep log s (.ok instances)) (hthreads : ThreadStep log s (.ok (c, threads)))
      (hfails : LineStep log ⟨c + 2, s.last⟩ (.error reason)) : Runs log s (.error reason)
  | read {instances threads : UInt64} {c : Nat} {x : Sources} {reason : SkipReason}
      (htag : TagStep log s (.ok instances)) (hthreads : ThreadStep log s (.ok (c, threads)))
      (hlines : LineStep log ⟨c + 2, s.last⟩ (.ok x)) (hfails : ReadStep x (.error reason)) :
      Runs log s (.error reason)
  | rate {instances threads missed : UInt64} {c : Nat} {x : Sources} {ms : Triple Measurement}
      {reason : SkipReason}
      (htag : TagStep log s (.ok instances)) (hthreads : ThreadStep log s (.ok (c, threads)))
      (hlines : LineStep log ⟨c + 2, s.last⟩ (.ok x)) (hread : ReadStep x (.ok (ms, missed)))
      (hfails : RateStep ms (.error reason)) : Runs log s (.error reason)
  | done {instances threads missed value : UInt64} {c : Nat} {x : Sources} {ms : Triple Measurement}
      (htag : TagStep log s (.ok instances)) (hthreads : ThreadStep log s (.ok (c, threads)))
      (hlines : LineStep log ⟨c + 2, s.last⟩ (.ok x)) (hread : ReadStep x (.ok (ms, missed)))
      (hrate : RateStep ms (.ok value)) : Runs log s (.ok ⟨instances, threads, value, missed⟩)

/-- Past the end of the log there is no tag, anywhere else the steps come to something. -/
theorem exists_runs (htag : log[s.first]? = some tag) : ∃ r, Runs log s r := by
  obtain ⟨r | instances, htag⟩ := exists_tagStep htag
  · exact ⟨_, .tag htag⟩
  obtain ⟨r | ⟨c, threads⟩, hthreads⟩ := exists_threadStep log s
  · exact ⟨_, .threads htag hthreads⟩
  obtain ⟨r | x, hlines⟩ := exists_lineStep log ⟨c + 2, s.last⟩
  · exact ⟨_, .lines htag hthreads hlines⟩
  obtain ⟨r | ⟨ms, missed⟩, hread⟩ := exists_readStep x
  · exact ⟨_, .read htag hthreads hlines hread⟩
  obtain ⟨r | value, hrate⟩ := exists_rateStep ms
  · exact ⟨_, .rate htag hthreads hlines hread hrate⟩
  exact ⟨_, .done htag hthreads hlines hread hrate⟩

/-- What a section with this reading records. -/
def Reading.outcome (set : String) (r : Reading) : Outcome :=
  .recorded (rowOf set r.instances) (Axis.syscallThreads.bucketOf r.threads) r.value r.missed
    (isUnlisted r.instances)

theorem sample_of_runs {set : String} {r : Except SkipReason Reading}
    (htag : log[s.first]? = some tag) (h : Runs log s r) :
    sample set tag (s.lines log) = r.map (Reading.outcome set) := by
  rw [sample_eq_stages]
  simp only [valueStage_eq]
  cases h with
  | tag hfails =>
      rw [hfails.eq htag]
      rfl
  | threads htag' hfails =>
      rw [htag'.eq htag, ok_bind, hfails.eq]
      rfl
  | lines htag' hthreads hfails =>
      simp only [htag'.eq htag, hthreads.eq, Except.map, ok_bind, hfails.eq, error_bind]
  | read htag' hthreads hlines hfails =>
      simp only [htag'.eq htag, hthreads.eq, Except.map, ok_bind, hlines.eq, hfails.eq, error_bind]
  | rate htag' hthreads hlines hread hfails =>
      simp only [htag'.eq htag, hthreads.eq, Except.map, ok_bind, hlines.eq, hread.eq, hfails.eq,
        error_bind]
  | done htag' hthreads hlines hread hrate =>
      simp only [htag'.eq htag, hthreads.eq, Except.map, ok_bind, hlines.eq, hread.eq, hrate.eq, pure_bind]
      rfl

/-! ## The outcome -/

/-- What a section comes to, by the result of its steps. -/
def outcomeOf (set : String) : Except SkipReason Reading → Outcome
  | .ok reading => reading.outcome set
  | .error reason => .skipped reason

theorem Runs.exists_tag {r : Except SkipReason Reading} (h : Runs log s r) :
    ∃ tag, log[s.first]? = some tag := by
  have htag : ∃ r, TagStep log s r := by
    cases h with
    | tag htag | threads htag _ | lines htag _ _ | read htag _ _ _ | rate htag _ _ _ _
    | done htag _ _ _ _ => exact ⟨_, htag⟩
  obtain ⟨_, htag⟩ := htag
  cases htag with
  | read hline _ | broken hline _ => exact ⟨_, hline⟩

theorem mine?_of_runs {r : Except SkipReason Reading} (set : String) (h : Runs log s r) :
    mine? set log s = some (outcomeOf set r) := by
  obtain ⟨tag, htag⟩ := h.exists_tag
  unfold mine? mineFrom
  rw [htag, Option.map_some, sample_of_runs htag h]
  cases r with
  | ok reading => rfl
  | error reason => rfl

/-- A section comes to what its steps come to. -/
theorem mine?_eq_some_iff {set : String} {o : Outcome} :
    mine? set log s = some o ↔ ∃ r, Runs log s r ∧ outcomeOf set r = o := by
  constructor
  · intro hmine
    obtain ⟨tag, htag, _⟩ := Option.map_eq_some_iff.1 hmine
    obtain ⟨r, hruns⟩ := exists_runs htag
    exact ⟨r, hruns, Option.some.inj ((mine?_of_runs set hruns).symm.trans hmine)⟩
  · rintro ⟨r, hruns, rfl⟩
    exact mine?_of_runs set hruns

/-- **The exact outcome of a section of the syscall log**, whatever its bounds. Where its first line is in the
    log, a sample is recorded if all steps succeed, and otherwise the section is skipped for the reason of the
    first step that fails. It is never degenerate. -/
theorem mine?_exact (set : String) (log : List String) (s : Section) :
    ((mine? set log s).isSome = true ↔ s.first < log.length)
      ∧ (∀ row bucket value missed unlisted,
          mine? set log s = some (.recorded row bucket value missed unlisted)
            ↔ ∃ instances threads, Runs log s (.ok ⟨instances, threads, value, missed⟩)
              ∧ row = .labelled set (if instances ∈ Axis.syscallInstances.values
                  then Decimal.text instances else Axis.otherLabel)
              ∧ bucket = Axis.syscallThreads.bucketOf threads
              ∧ unlisted = decide (instances ∉ Axis.syscallInstances.values))
      ∧ (∀ reason, mine? set log s = some (.skipped reason) ↔ Runs log s (.error reason))
      ∧ ∀ row bucket reason, mine? set log s ≠ some (.degenerate row bucket reason) := by
  refine ⟨?_, fun row bucket value missed unlisted => ?_, fun reason => ?_, fun row bucket reason => ?_⟩
  · unfold mine?
    rw [Option.isSome_map, isSome_getElem?]
  · rw [mine?_eq_some_iff]
    constructor
    · rintro ⟨r | reading, hruns, houtcome⟩
      · exact nomatch houtcome
      · obtain ⟨hrow, hbucket, rfl, rfl, hunlisted⟩ := Outcome.recorded.inj houtcome
        rw [rowOf_eq] at hrow
        rw [isUnlisted_eq] at hunlisted
        exact ⟨_, _, hruns, hrow.symm, hbucket.symm, hunlisted.symm⟩
    · rintro ⟨instances, threads, hruns, rfl, rfl, rfl⟩
      refine ⟨_, hruns, ?_⟩
      rw [← rowOf_eq, ← isUnlisted_eq]
      rfl
  · rw [mine?_eq_some_iff]
    constructor
    · rintro ⟨r | reading, hruns, houtcome⟩
      · obtain rfl := Outcome.skipped.inj houtcome
        exact hruns
      · exact nomatch houtcome
    · intro hruns
      exact ⟨_, hruns, rfl⟩
  · rw [ne_eq, mine?_eq_some_iff]
    rintro ⟨r | reading, _, houtcome⟩
    · exact nomatch houtcome
    · exact nomatch houtcome

/-- The tag is passed over, since the line below it mentions the measured call. -/
example :
    mine? "fl" ["krp_insts=96", "insmod krp_flock.ko", "16", "8", "flock"] ⟨0, 4⟩
      = some (.skipped (.threadMismatch "16" "8")) := by
  decide

/-- Of the rates 100, 300 and 150 the last one is recorded. -/
example :
    mine? "fl"
        ["krp_insts=96", "insmod krp_flock.ko", "16", "16", " 10.0 100 syscalls:sys_enter_flock",
          " 20.0 300 syscalls:sys_enter_flock", " 30.0 150 syscalls:sys_enter_flock",
          "krp_sys_flock: missed: 5"] ⟨0, 7⟩
      = some (.recorded (.labelled "fl" "96") 6 150 5 false) := by
  decide

end Syscall

end BenchLog
