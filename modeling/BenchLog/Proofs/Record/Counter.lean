import BenchLog.Proofs.Record.Line

/-!
# `BenchLog.Proofs.Record.Counter` — record lines read back

However a record line is written, it is read as its tag and its nine counts. Where a count is too large or
the interval has no length, the error is that of the first such count in the order in which they are looked
at: the interval comes before the others, and they come in the order of the line.

## Contents
- `orFirstTooLarge`, and `WrittenCount.readField_bind`: one more count in front of others;
- `RecordLine.record`, `RecordLine.outcome`: what reading a line gives;
- `RecordLine.ofLine_line_eq`, `CounterRecord.ofLine_line`;
- `exampleLine`, a line in pieces.
-/

namespace BenchLog.Record

open BenchLog.Text

variable {word : String}

/-! ## The values -/

/-- What is given once the counts are read: the error of the first one that is too large, if there is such
    a count. -/
def orFirstTooLarge {α : Type} (counts : List (Field × List Char)) (a : α) : Except LineError α :=
  match counts.find? fun count => Decimal.largest < Decimal.value count.2 with
  | some (field, digits) => .error (.integer field (String.ofList digits) .tooLarge)
  | none => .ok a

/-- A count is read as the number it writes, unless that is too large. -/
theorem WrittenCount.readField_chars (n : WrittenCount word) (field : Field) :
    readField field n.digits.chars
      = if Decimal.largest < n.value then
          .error (.integer field (String.ofList n.digits.chars) .tooLarge)
        else .ok (UInt64.ofNat n.value) := by
  rw [readField, Decimal.read_digits n.digits.ne_nil n.digits.all, WrittenCount.value]
  split <;> rfl

/-- Reading a count in front of others, when the others are read in their order. -/
theorem WrittenCount.readField_bind {α : Type} (n : WrittenCount word) {field : Field}
    {later : List (Field × List Char)} {next : UInt64 → Except LineError α} {a : α}
    (hnext : next (UInt64.ofNat n.value) = orFirstTooLarge later a) :
    (readField field n.digits.chars >>= next)
      = orFirstTooLarge ((field, n.digits.chars) :: later) a := by
  rw [n.readField_chars, orFirstTooLarge, List.find?_cons]
  by_cases hlarge : Decimal.largest < n.value
  · have hfound : decide (Decimal.largest < Decimal.value n.digits.chars) = true :=
      decide_eq_true hlarge
    rw [if_pos hlarge, hfound]
    rfl
  · have hpassed : decide (Decimal.largest < Decimal.value n.digits.chars) = false :=
      decide_eq_false hlarge
    rw [if_neg hlarge, hpassed]
    exact hnext

namespace RecordLine

/-- The counts that are looked at once the interval is known to have a length, in that order. -/
def counts (l : RecordLine) : List (Field × List Char) :=
  [(.threads, l.threads.digits.chars), (.preempt, l.preempt.digits.chars), (.max, l.max.digits.chars),
   (.cycle, l.cycle.digits.chars), (.a, l.a.digits.chars), (.b, l.b.digits.chars),
   (.hits, l.hits.digits.chars), (.missed, l.missed.digits.chars)]

/-- The record that a line reports, provided that its counts fit. -/
def record (l : RecordLine) : CounterRecord where
  tag := String.ofList l.tag
  threads := UInt64.ofNat l.threads.value
  preempt := UInt64.ofNat l.preempt.value
  max := UInt64.ofNat l.max.value
  cycle := UInt64.ofNat l.cycle.value
  a := UInt64.ofNat l.a.value
  b := UInt64.ofNat l.b.value
  delta := UInt64.ofNat l.delta.value
  hits := UInt64.ofNat l.hits.value
  missed := UInt64.ofNat l.missed.value

/-- What reading a line gives: an error for the interval, if that is too large or has no length, else the
    error of the first other count that is too large, else the record. -/
def outcome (l : RecordLine) : Except LineError CounterRecord :=
  if Decimal.largest < l.delta.value then
    .error (.integer .delta (String.ofList l.delta.digits.chars) .tooLarge)
  else if l.delta.value = 0 then .error (.zeroDelta l.line)
  else orFirstTooLarge l.counts l.record

/-- Once the interval is known, the other counts are read in their order. -/
theorem ofLine_line_eq (l : RecordLine) : CounterRecord.ofLine l.line = l.outcome := by
  have hpieces : CounterText.ofLine? l.line.toList = some ⟨l.tag, l.fields⟩ := by
    rw [line, String.toList_ofList]
    exact l.ofLine?_chars
  unfold CounterRecord.ofLine
  rw [hpieces]
  -- The length of the interval comes before all other counts.
  show (readField .delta l.delta.digits.chars >>= _) = _
  rw [l.delta.readField_chars, outcome]
  by_cases hlarge : Decimal.largest < l.delta.value
  · rw [if_pos hlarge, if_pos hlarge]
    rfl
  · rw [if_neg hlarge, if_neg hlarge]
    have hvalue := Decimal.toNat_ofNat hlarge
    by_cases hzero : l.delta.value = 0
    · rw [if_pos hzero, hzero]
      rfl
    · have hne : UInt64.ofNat l.delta.value ≠ 0 := by
        intro h
        rw [h] at hvalue
        exact hzero hvalue.symm
      rw [if_neg hzero]
      show (if UInt64.ofNat l.delta.value = 0 then _ else _) = _
      rw [if_neg hne]
      -- From here on one step for each count, in the order of `counts`.
      refine l.threads.readField_bind ?_
      refine l.preempt.readField_bind ?_
      refine l.max.readField_bind ?_
      refine l.cycle.readField_bind ?_
      refine l.a.readField_bind ?_
      refine l.b.readField_bind ?_
      refine l.hits.readField_bind ?_
      refine l.missed.readField_bind ?_
      rfl

/-- A line is never taken for something else than a record. -/
theorem outcome_ne_noMatch (l : RecordLine) (grammar : Grammar) (text : String) :
    l.outcome ≠ .error (.noMatch grammar text) := by
  unfold outcome orFirstTooLarge
  intro h
  repeat' split at h
  all_goals cases h

/-- A record is given only if all its counts fit, so each of them is the number written. -/
theorem outcome_eq_ok {l : RecordLine} {r : CounterRecord} (h : l.outcome = .ok r) :
    r = l.record ∧ ¬ Decimal.largest < l.delta.value
      ∧ ∀ count ∈ l.counts, ¬ Decimal.largest < Decimal.value count.2 := by
  unfold outcome orFirstTooLarge at h
  split at h
  · cases h
  · next hlarge =>
      split at h
      · cases h
      · split at h
        · cases h
        · next hnone =>
            refine ⟨(Except.ok.inj h).symm, hlarge, fun count hcount => ?_⟩
            simpa using List.find?_eq_none.1 hnone count hcount

end RecordLine

/-- A record line is read as what it writes, however it writes it, and where that cannot be represented the
    errors have a fixed order. -/
theorem CounterRecord.ofLine_line (l : RecordLine) :
    CounterRecord.ofLine l.line = l.outcome
      ∧ (∀ grammar text, CounterRecord.ofLine l.line ≠ .error (.noMatch grammar text))
      ∧ ∀ r, CounterRecord.ofLine l.line = .ok r →
          r.tag = String.ofList l.tag ∧ r.threads.toNat = l.threads.value
            ∧ r.preempt.toNat = l.preempt.value ∧ r.max.toNat = l.max.value
            ∧ r.cycle.toNat = l.cycle.value ∧ r.a.toNat = l.a.value ∧ r.b.toNat = l.b.value
            ∧ r.delta.toNat = l.delta.value ∧ r.hits.toNat = l.hits.value
            ∧ r.missed.toNat = l.missed.value := by
  rw [l.ofLine_line_eq]
  refine ⟨rfl, l.outcome_ne_noMatch, fun r hr => ?_⟩
  obtain ⟨rfl, hdelta, hcounts⟩ := RecordLine.outcome_eq_ok hr
  simp only [RecordLine.counts, List.forall_mem_cons] at hcounts
  obtain ⟨hthreads, hpreempt, hmax, hcycle, ha, hb, hhits, hmissed, -⟩ := hcounts
  exact ⟨rfl, Decimal.toNat_ofNat hthreads, Decimal.toNat_ofNat hpreempt, Decimal.toNat_ofNat hmax,
    Decimal.toNat_ofNat hcycle, Decimal.toNat_ofNat ha, Decimal.toNat_ofNat hb,
    Decimal.toNat_ofNat hdelta, Decimal.toNat_ofNat hhits, Decimal.toNat_ofNat hmissed⟩

/-- The line that the description of the log gives as an example. -/
def exampleLine : RecordLine where
  before := []
  whole := { chars := "1294614".toList }
  places := { chars := "893791".toList }
  indent := { chars := [' '] }
  tag := ['f', 'l']
  pad := { chars := [' ', ' '] }
  threads := { blank := ' ', spelling := "threads:".toList, gap := { chars := [] },
               digits := { chars := "96".toList } }
  preempt := { blank := ' ', spelling := "preempt:".toList, gap := { chars := [] },
               digits := { chars := "0".toList } }
  max := { blank := ' ', spelling := "max:".toList, gap := { chars := [' '] },
           digits := { chars := "384".toList } }
  cycle := { blank := ' ', spelling := "cycle:".toList, gap := { chars := [' '] },
             digits := { chars := "0".toList } }
  a := { blank := ' ', spelling := "a:".toList, gap := { chars := [] }, digits := { chars := "0".toList } }
  b := { blank := ' ', spelling := "b:".toList, gap := { chars := [] }, digits := { chars := "1".toList } }
  delta := { blank := ' ', spelling := "delta:".toList, gap := { chars := [' '] },
             digits := { chars := "10005563711".toList } }
  wide := { chars := [' '] }
  hits := { blank := ' ', spelling := "hits:".toList, gap := { chars := "       ".toList },
            digits := { chars := "4294672".toList } }
  missed := { blank := ' ', spelling := "missed:".toList, gap := { chars := [' '] },
              digits := { chars := "0".toList } }
  after := []
  tag_trimmed := ⟨ends_cons (by decide), ends_cons (by decide)⟩
  after_ends := by simp [Ends]

theorem CounterRecord.ofLine_exampleLine :
    exampleLine.line = "[1294614.893791] fl  : threads:96 preempt:0 max: 384 cycle: 0 a:0 b:1 "
        ++ "delta: 10005563711  hits:       4294672 missed: 0"
      ∧ CounterRecord.ofLine exampleLine.line
        = .ok ⟨"fl", 96, 0, 384, 0, 0, 1, 10005563711, 4294672, 0⟩ := by
  refine ⟨by decide, ?_⟩
  rw [(CounterRecord.ofLine_line exampleLine).1]
  rfl

end BenchLog.Record
