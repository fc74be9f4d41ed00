import BenchLog.Proofs.Decimal.Numeral
import BenchLog.Rate
import Mathlib.Algebra.Order.Floor.Semifield
import Mathlib.Data.Rat.Floor

/-!
# `BenchLog.Proofs.Rate` — whole rates against exact ones

The rates of a counter record are whole numbers that fit into a count. The exact rate is a quotient, which need
be neither. Here the whole rate is shown to be the exact one rounded a single time: down to a whole number, and
down to the largest count where it is larger still. Rounding keeps the order of rates, though it may make
different ones equal. What is multiplied on the way fits into twice the width of a count, and where there is a
duration at all the divisor is the duration.

The rates of measurements are floating-point numbers, so nothing is compared with an exact rate there. They are
said in one formula for all three, with the interval that each of them is divided by.

## Contents
- `exactRate`, a rate as a rational number, and `roundRate`, which keeps the order;
- `max_toNat_one`, `toNat_perTenSeconds`: a whole rate is the exact one rounded;
- `not_umulOverflow_tenSeconds`: the product fits into 128 bits;
- `intervalSeconds`, `measuredRate`; `intervalRates_eq_ok_iff` and `intervalRates_eq_error_iff`: measurements.
-/

namespace BenchLog

open BenchLog.Record

/-! ## Exact rates -/

/-- A count made in `delta` nanoseconds, per ten seconds, as it is. -/
def exactRate (count delta : UInt64) : ℚ := 10 ^ 10 * count.toNat / delta.toNat

/-- A rate rounded down to a whole number, and to the largest count where it is larger. -/
def roundRate (rate : ℚ) : ℕ := min ⌊rate⌋₊ (2 ^ 64 - 1)

theorem roundRate_mono : Monotone roundRate := fun _ _ hle => min_le_min_right _ (Nat.floor_mono hle)

/-- The whole part of an exact rate is a quotient of whole numbers. -/
theorem floor_exactRate (count delta : UInt64) :
    ⌊exactRate count delta⌋₊ = tenSeconds * count.toNat / delta.toNat := by
  have hcast : exactRate count delta = ((tenSeconds * count.toNat : ℕ) : ℚ) / (delta.toNat : ℕ) := by
    rw [exactRate, Nat.cast_mul]
    norm_num [tenSeconds]
  rw [hcast]
  exact Nat.floor_div_eq_div (K := ℚ) _ _

/-- The divisor is only raised where there is no duration. -/
theorem max_toNat_one {delta : UInt64} (h : 0 < delta) : max delta.toNat 1 = delta.toNat :=
  max_eq_left (UInt64.lt_iff_toNat_lt.1 h)

/-- **A whole rate is the exact one, rounded once.** -/
theorem toNat_perTenSeconds (count : UInt64) {delta : UInt64} (h : 0 < delta) :
    (perTenSeconds count delta).toNat = roundRate (exactRate count delta) := by
  have hfits : ¬Decimal.largest < min (tenSeconds * count.toNat / delta.toNat) Decimal.largest := by
    omega
  rw [perTenSeconds, max_toNat_one h, Decimal.toNat_ofNat hfits, roundRate, floor_exactRate]
  rfl

/-- Ten seconds times a count fits into 128 bits. -/
theorem not_umulOverflow_tenSeconds (count : UInt64) :
    (BitVec.ofNat 128 tenSeconds).umulOverflow (count.toBitVec.setWidth 128) = false := by
  have hcount : count.toNat < 2 ^ 64 := count.toNat_lt
  have hwide : (count.toBitVec.setWidth 128).toNat = count.toNat := by
    rw [BitVec.toNat_setWidth, UInt64.toNat_toBitVec]
    omega
  rw [BitVec.umulOverflow, hwide, BitVec.toNat_ofNat, decide_eq_false_iff_not]
  unfold tenSeconds
  omega

/-! ## Rates of measurements -/

/-- The seconds that a measurement lasted: from the end of the one before it, or from second zero. -/
def intervalSeconds (ms : Triple Measurement) : Fin 3 → Float
  | 0 => ms.first.elapsed - 0
  | 1 => ms.second.elapsed - ms.first.elapsed
  | 2 => ms.third.elapsed - ms.second.elapsed

/-- The count of a measurement, per ten seconds. -/
def measuredRate (ms : Triple Measurement) (i : Fin 3) : Float :=
  (ms.get i).count.toFloat * 10 / intervalSeconds ms i

variable {ms : Triple Measurement}

theorem intervalRate_of_pos {index : Nat} {start : Float} {m : Measurement} (h : 0 < m.elapsed - start) :
    intervalRate index start m = .ok (m.count.toFloat * 10 / (m.elapsed - start)) := if_pos h

theorem intervalRate_of_not_pos {index : Nat} {start : Float} {m : Measurement}
    (h : ¬0 < m.elapsed - start) :
    intervalRate index start m = .error (.nonPositiveInterval index (m.elapsed - start)) := if_neg h

/-- Intervals that all last longer than nothing have a rate each. -/
theorem intervalRates_of_pos (h : ∀ i, 0 < intervalSeconds ms i) :
    intervalRates ms = .ok (.ofFn (measuredRate ms)) := by
  unfold intervalRates
  rw [intervalRate_of_pos (h 0), intervalRate_of_pos (h 1), intervalRate_of_pos (h 2)]
  rfl

/-- The first interval that does not last longer than nothing is the error. -/
theorem intervalRates_of_not_pos {i : Fin 3} (hbefore : ∀ j < i, 0 < intervalSeconds ms j)
    (hi : ¬0 < intervalSeconds ms i) :
    intervalRates ms = .error (.nonPositiveInterval i (intervalSeconds ms i)) := by
  unfold intervalRates
  match i with
  | 0 =>
      rw [intervalRate_of_not_pos hi]
      rfl
  | 1 =>
      rw [intervalRate_of_pos (hbefore 0 (by decide)), intervalRate_of_not_pos hi]
      rfl
  | 2 =>
      rw [intervalRate_of_pos (hbefore 0 (by decide)), intervalRate_of_pos (hbefore 1 (by decide)),
        intervalRate_of_not_pos hi]
      rfl

/-- Either every interval lasts longer than nothing, or there is a first one that does not. -/
theorem pos_or_exists_first (ms : Triple Measurement) :
    (∀ i, 0 < intervalSeconds ms i)
      ∨ ∃ i, (∀ j < i, 0 < intervalSeconds ms j) ∧ ¬0 < intervalSeconds ms i := by
  by_cases h0 : 0 < intervalSeconds ms 0
  · by_cases h1 : 0 < intervalSeconds ms 1
    · by_cases h2 : 0 < intervalSeconds ms 2
      · exact Or.inl fun | 0 => h0 | 1 => h1 | 2 => h2
      · exact Or.inr ⟨2, fun | 0, _ => h0 | 1, _ => h1, h2⟩
    · exact Or.inr ⟨1, fun | 0, _ => h0, h1⟩
  · exact Or.inr ⟨0, fun j hj => absurd hj (Fin.not_lt_zero j), h0⟩

/-- **The rates of three measurements.** There are rates if every interval lasts longer than nothing, and then
    each is its count times ten, divided by the seconds since the measurement before. -/
theorem intervalRates_eq_ok_iff {rates : Triple Float} :
    intervalRates ms = .ok rates
      ↔ (∀ i, 0 < intervalSeconds ms i) ∧ rates = .ofFn (measuredRate ms) := by
  constructor
  · intro h
    rcases pos_or_exists_first ms with hpos | ⟨i, hbefore, hi⟩
    · rw [intervalRates_of_pos hpos] at h
      exact ⟨hpos, (Except.ok.inj h).symm⟩
    · rw [intervalRates_of_not_pos hbefore hi] at h
      exact nomatch h
  · rintro ⟨hpos, rfl⟩
    exact intervalRates_of_pos hpos

theorem intervalRates_eq_error_iff {fault : LineError} :
    intervalRates ms = .error fault
      ↔ ∃ i, (∀ j < i, 0 < intervalSeconds ms j) ∧ ¬0 < intervalSeconds ms i
          ∧ fault = .nonPositiveInterval i (intervalSeconds ms i) := by
  constructor
  · intro h
    rcases pos_or_exists_first ms with hpos | ⟨i, hbefore, hi⟩
    · rw [intervalRates_of_pos hpos] at h
      exact nomatch h
    · rw [intervalRates_of_not_pos hbefore hi] at h
      exact ⟨i, hbefore, hi, (Except.error.inj h).symm⟩
  · rintro ⟨i, hbefore, hi, rfl⟩
    exact intervalRates_of_not_pos hbefore hi

/-- A time that has passed before is the error of the measurement that gives it. -/
example :
    intervalRates ⟨⟨10, 100⟩, ⟨20, 300⟩, ⟨30, 150⟩⟩ = .ok ⟨100, 300, 150⟩
      ∧ intervalRates ⟨⟨10, 100⟩, ⟨10, 300⟩, ⟨30, 150⟩⟩ = .error (.nonPositiveInterval 1 0) := by
  decide

end BenchLog
