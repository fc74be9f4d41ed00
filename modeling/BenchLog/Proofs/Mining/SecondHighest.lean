import BenchLog.Proofs.Mining.Records
import BenchLog.Proofs.Mining.Syscall
import BenchLog.Proofs.Rate
import BenchLog.Proofs.Selection

/-!
# `BenchLog.Proofs.Mining.SecondHighest` — the value of a section of the counter log

A section of the counter log stands for its five records by one of them, chosen by whole rates of hits. What is
recorded can be told from the exact rates alone: it is the second-highest of the five, with equal ones counted
as often as they occur, rounded once. Rounding before the choice could do harm only by making rates equal that
are not, and all that comes of it is that the section counts as ambiguous when the second- and the third-highest
rate are rounded to the same number.

## Contents
- `Record.delta_pos_of_ofLine`: a record that is read has a duration; `exists_ofLine_of_mem_leading`;
- `ascending_hitRate`, `byRank_hitRate`: whole rates in the order of exact ones;
- `byRank_hitRate_ok`, `byRank_hitRate_ambiguous_iff`: the choice among five, in terms of exact rates;
- `mine_second_highest`.
-/

namespace BenchLog

open BenchLog.Record

/-! ## Records have a duration -/

/-- A record is read only once its duration has been found not to be zero. -/
theorem Record.delta_pos_of_ofLine {line : String} {r : CounterRecord}
    (h : CounterRecord.ofLine line = .ok r) : 0 < r.delta := by
  unfold CounterRecord.ofLine at h
  split at h
  · exact nomatch h
  · obtain ⟨delta, -, h⟩ := bind_eq_ok.1 h
    by_cases hzero : delta = 0
    · simp only [if_pos hzero, throw_eq_error, error_bind] at h
      exact nomatch h
    · simp only [if_neg hzero] at h
      obtain ⟨threads, -, h⟩ := bind_eq_ok.1 h
      obtain ⟨preempt, -, h⟩ := bind_eq_ok.1 h
      obtain ⟨max, -, h⟩ := bind_eq_ok.1 h
      obtain ⟨cycle, -, h⟩ := bind_eq_ok.1 h
      obtain ⟨a, -, h⟩ := bind_eq_ok.1 h
      obtain ⟨b, -, h⟩ := bind_eq_ok.1 h
      obtain ⟨hits, -, h⟩ := bind_eq_ok.1 h
      obtain ⟨missed, -, h⟩ := bind_eq_ok.1 h
      obtain rfl := Except.ok.inj h
      exact UInt64.pos_iff_ne_zero.2 hzero

namespace Counter

variable {lines : List String} {records : List CounterRecord} {r : CounterRecord}

theorem exists_ofLine_of_mem_leading (h : r ∈ leading lines) :
    ∃ line, CounterRecord.ofLine line = .ok r := by
  obtain ⟨result, hresult, hr⟩ := List.mem_filterMap.1 h
  obtain ⟨line, -, hline⟩ := List.mem_map.1 ((List.takeWhile_sublist _).subset hresult)
  cases result with
  | error fault => exact nomatch hr
  | ok r' =>
      obtain rfl : r' = r := Option.some.inj hr
      exact ⟨line, hline⟩

theorem delta_pos_of_mem_leading (h : r ∈ leading lines) : 0 < r.delta := by
  obtain ⟨line, hline⟩ := exists_ofLine_of_mem_leading h
  exact Record.delta_pos_of_ofLine hline

/-! ## Whole rates in the order of exact ones -/

/-- The exact rate of hits of a record. -/
def exactHitRate (r : CounterRecord) : ℚ := exactRate r.hits r.delta

/-- Whole rates of hits in ascending order are the exact ones in ascending order, rounded. -/
theorem ascending_hitRate (h : ∀ r ∈ records, 0 < r.delta) :
    Selection.ascending (fun r => (hitRate r).toNat) records
      = (Selection.ascending exactHitRate records).map roundRate :=
  Selection.ascending_of_monotone roundRate_mono fun r hr => toNat_perTenSeconds r.hits (h r hr)

/-- Records are chosen by their rates as numbers. -/
theorem byRank_hitRate (records : List CounterRecord) :
    Selection.byRank hitRate records = Selection.byRank (fun r => (hitRate r).toNat) records :=
  Selection.byRank_congr (fun _ _ => UInt64.lt_iff_toNat_lt) records

/-! ## The choice among five -/

section Five

variable {q₀ q₁ q₂ q₃ q₄ : ℚ}

/-- The whole rate of a chosen record is the second-highest exact one, rounded. -/
theorem byRank_hitRate_ok (hdelta : ∀ r ∈ records, 0 < r.delta)
    (hrates : Selection.ascending exactHitRate records = [q₄, q₃, q₂, q₁, q₀])
    {j : Fin records.length} (hj : Selection.byRank hitRate records = .ok j) :
    (hitRate (records.get j)).toNat = roundRate q₁ := by
  have hwhole := ascending_hitRate hdelta
  rw [hrates] at hwhole
  rw [byRank_hitRate] at hj
  exact ((Selection.byRank_eq_ok_iff hwhole).1 hj).2.1

/-- No record is chosen where the second- and the third-highest exact rate are rounded to one number. -/
theorem byRank_hitRate_ambiguous_iff (hdelta : ∀ r ∈ records, 0 < r.delta)
    (hrates : Selection.ascending exactHitRate records = [q₄, q₃, q₂, q₁, q₀]) :
    Selection.byRank hitRate records = .error (.ambiguous 5) ↔ roundRate q₁ = roundRate q₂ := by
  have hwhole := ascending_hitRate hdelta
  rw [hrates] at hwhole
  have hle : roundRate q₂ ≤ roundRate q₁ := by
    have hsorted := hwhole ▸ Selection.pairwise_ascending (fun r => (hitRate r).toNat) records
    simp only [List.map_cons, List.pairwise_cons, List.mem_cons] at hsorted
    exact hsorted.2.2.1 _ (Or.inl rfl)
  rw [byRank_hitRate, Selection.byRank_eq_ambiguous_iff hwhole]
  omega

end Five

/-! ## The recorded value -/

/-- **The recorded value of a section of the counter log is the second-highest exact rate, rounded once.**
    Take any section with five records and let `q₀, …, q₄` be their exact rates of hits, the highest first. If
    the section is recorded, then with `q₁` rounded down to a whole number, and to the largest count where it is
    larger, and with the missed count of the chosen record made a rate in the same way. It is ambiguous exactly
    if `q₁` and `q₂` are rounded to the same number. What is multiplied for a rate fits into 128 bits, and the
    guard against a division by zero never changes a rate. -/
theorem mine_second_highest (log : List String) (s : Section) :
    let records := leading ((s.select (Text.mentions reportWord) log).take 5)
    (∀ count : UInt64,
        (BitVec.ofNat 128 tenSeconds).umulOverflow (count.toBitVec.setWidth 128) = false)
      ∧ (∀ r ∈ records, 0 < r.delta
          ∧ ∀ count, perTenSeconds count r.delta
            = UInt64.ofNat (min (tenSeconds * count.toNat / r.delta.toNat) Decimal.largest))
      ∧ ∀ q₀ q₁ q₂ q₃ q₄ : ℚ, Selection.ascending exactHitRate records = [q₄, q₃, q₂, q₁, q₀] →
          (∀ row bucket value missed unlisted,
              mine log s = .recorded row bucket value missed unlisted →
              value.toNat = min ⌊q₁⌋₊ (2 ^ 64 - 1)
                ∧ ∃ j, Selection.byRank hitRate records = .ok j
                  ∧ missed.toNat
                    = min ⌊exactRate (records.get j).missed (records.get j).delta⌋₊ (2 ^ 64 - 1))
            ∧ ((∃ row bucket n, mine log s = .degenerate row bucket (.ambiguous n))
                ↔ min ⌊q₁⌋₊ (2 ^ 64 - 1) = min ⌊q₂⌋₊ (2 ^ 64 - 1)) := by
  intro records
  have hdelta : ∀ r ∈ records, 0 < r.delta := fun r hr => delta_pos_of_mem_leading hr
  refine ⟨not_umulOverflow_tenSeconds, fun r hr => ⟨hdelta r hr, fun count => ?_⟩, ?_⟩
  · rw [perTenSeconds, max_toNat_one (hdelta r hr)]
  intro q₀ q₁ q₂ q₃ q₄ hrates
  have hdecides : Decides (found s log) records (mine log s) := mine_decides log s
  have hfive : records.length = 5 := Selection.length_of_ascending_eq hrates
  constructor
  · intro row bucket value missed unlisted hrecorded
    obtain ⟨-, j, hj, -, -, rfl, rfl, -⟩ := (hdecides.eq_recorded_iff _ _ _ _ _).1 hrecorded
    exact ⟨byRank_hitRate_ok hdelta hrates hj, j, hj,
      toNat_perTenSeconds _ (hdelta _ (List.get_mem records j))⟩
  · show _ ↔ roundRate q₁ = roundRate q₂
    rw [← byRank_hitRate_ambiguous_iff hdelta hrates]
    constructor
    · rintro ⟨row, bucket, n, hdegenerate⟩
      obtain ⟨-, htied, -⟩ := (hdecides.eq_ambiguous_iff row bucket n).1 hdegenerate
      rcases byRank_of_length_eq hfive with ⟨i, hi⟩ | hfive_tied
      · cases hi.symm.trans htied
      · exact hfive_tied
    · intro htied
      have hne : records ≠ [] := List.ne_nil_of_length_pos (by omega)
      exact ⟨_, _, 5, (hdecides.eq_ambiguous_iff _ _ 5).2
        ⟨hfive, htied, records.head hne, List.head?_eq_some_head hne, rfl, rfl⟩⟩

/-- The highest rate is larger than the largest count, and the second-highest is no whole number. -/
theorem mine_second_highest_saturated :
    let log :=
      ["insmod",
        "[1.0] fl : threads:8 preempt:0 max: 384 cycle: 0 a:0 b:1 delta: 3 hits: 7 missed: 2",
        "[2.0] fl : threads:8 preempt:0 max: 384 cycle: 0 a:0 b:1 delta: 10 hits: 2 missed: 0",
        "[3.0] fl : threads:8 preempt:0 max: 384 cycle: 0 a:0 b:1 delta: 10 hits: 7 missed: 0",
        "[4.0] fl : threads:8 preempt:0 max: 384 cycle: 0 a:0 b:1 delta: 1 hits: 1844674408 missed: 0",
        "[5.0] fl : threads:8 preempt:0 max: 384 cycle: 0 a:0 b:1 delta: 10 hits: 1 missed: 0"]
    let records := leading ((Section.select (Text.mentions reportWord) ⟨0, 5⟩ log).take 5)
    (⟨"fl", 8, 0, 384, 0, 0, 1, 3, 7, 2⟩ ∈ records ∧ (0 : UInt64) < 3)
      ∧ Selection.ascending exactHitRate records
        = [10 ^ 9, 2 * 10 ^ 9, 7 * 10 ^ 9, 7 * 10 ^ 10 / 3, 1844674408 * 10 ^ 10]
      ∧ mine log ⟨0, 5⟩ = .recorded ⟨"fl:384/0-1"⟩ 4 23333333333 6666666666 false
      ∧ (23333333333 : UInt64).toNat = min ⌊(7 * 10 ^ 10 / 3 : ℚ)⌋₊ (2 ^ 64 - 1)
      ∧ min ⌊(7 * 10 ^ 10 / 3 : ℚ)⌋₊ (2 ^ 64 - 1) ≠ min ⌊(7 * 10 ^ 9 : ℚ)⌋₊ (2 ^ 64 - 1) := by
  intro log records
  have hrecords : records
      = [⟨"fl", 8, 0, 384, 0, 0, 1, 3, 7, 2⟩, ⟨"fl", 8, 0, 384, 0, 0, 1, 10, 2, 0⟩,
          ⟨"fl", 8, 0, 384, 0, 0, 1, 10, 7, 0⟩,
          ⟨"fl", 8, 0, 384, 0, 0, 1, 1, 1844674408, 0⟩,
          ⟨"fl", 8, 0, 384, 0, 0, 1, 10, 1, 0⟩] := by decide +kernel
  have hmem : ⟨"fl", 8, 0, 384, 0, 0, 1, 3, 7, 2⟩ ∈ records := hrecords ▸ List.mem_cons_self
  have hrates : Selection.ascending exactHitRate records
      = [10 ^ 9, 2 * 10 ^ 9, 7 * 10 ^ 9, 7 * 10 ^ 10 / 3, 1844674408 * 10 ^ 10] := by
    rw [hrecords]
    decide +kernel
  have hmine : mine log ⟨0, 5⟩ = .recorded ⟨"fl:384/0-1"⟩ 4 23333333333 6666666666 false := by
    rw [mine_of_ok hrecords]
    decide +kernel
  obtain ⟨-, hdelta, hrule⟩ := mine_second_highest log ⟨0, 5⟩
  obtain ⟨hvalue, hambiguous⟩ := hrule _ _ _ _ _ hrates
  refine ⟨⟨hmem, (hdelta _ hmem).1⟩, hrates, hmine, (hvalue _ _ _ _ _ hmine).1, ?_⟩
  intro hsame
  obtain ⟨row, bucket, n, hdegenerate⟩ := hambiguous.2 hsame
  exact nomatch hmine.symm.trans hdegenerate

end Counter

end BenchLog
