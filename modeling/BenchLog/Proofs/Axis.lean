import BenchLog.Axis

/-!
# `BenchLog.Proofs.Axis` — where the values of an axis go

The bucket of a value is the first place where it is listed, or the unmapped one. Which of the two it is shows
in the label: that of a listed value is its own text, and the unmapped bucket has none.

The check of an axis looks for a value that it has seen before. The values seen before a place are those of
the earlier places, and a value that stands there too has an earlier bucket. So the check finds the first
place that is not the bucket of its value, though it never asks for a bucket.

## Contents
- `Axis.label?_bucketOf`, the label of the bucket of a value;
- `Axis.isUnmapped_bucketOf`, which values have no bucket of their own;
- `Axis.bucketOf_eq_iff`, which values have one bucket;
- `Axis.bucketOf_of_getElem?`, `Axis.mem_take_iff`, the bucket of a value and the places where it stands;
- `Axis.RepeatsAt`, with `Axis.firstRepeat?_eq_some_iff`: what the search for a repeated value finds;
- `Axis.check_agrees_with_bucketOf`.
-/

namespace BenchLog

namespace Axis

/-- The label of the bucket of a value is its own text, if it is listed. -/
theorem label?_bucketOf (axis : Axis) (value : UInt64) :
    axis.label? (axis.bucketOf value)
      = if value ∈ axis.values then some (Decimal.text value) else none := by
  unfold label? bucketOf
  cases h : axis.values.findIdx? (· == value) with
  | none =>
      have hnot : value ∉ axis.values := by
        intro hmem
        have := List.findIdx?_eq_none_iff.1 h value hmem
        simp at this
      have hpast : axis.values[axis.unmapped]? = none := List.getElem?_eq_none (Nat.le_refl _)
      rw [if_neg hnot, Option.getD_none, hpast, Option.map_none]
  | some i =>
      obtain ⟨hi, heq, _⟩ := List.findIdx?_eq_some_iff_getElem.1 h
      have hvalue : axis.values[i] = value := eq_of_beq heq
      have hmem : value ∈ axis.values := hvalue ▸ List.getElem_mem hi
      rw [if_pos hmem, Option.getD_some, List.getElem?_eq_getElem hi, hvalue, Option.map_some]

theorem label?_eq_none_iff {axis : Axis} {bucket : Nat} :
    axis.label? bucket = none ↔ axis.isUnmapped bucket = true := by
  unfold label? isUnmapped unmapped size
  simp

/-- The values that are not listed have no bucket of their own. -/
theorem isUnmapped_bucketOf (axis : Axis) (value : UInt64) :
    axis.isUnmapped (axis.bucketOf value) = decide (value ∉ axis.values) := by
  have hlabel := label?_bucketOf axis value
  by_cases hmem : value ∈ axis.values
  · have hsome : axis.label? (axis.bucketOf value) ≠ none := by
      rw [hlabel, if_pos hmem]
      simp
    have hmapped : axis.isUnmapped (axis.bucketOf value) ≠ true := mt label?_eq_none_iff.2 hsome
    simpa [hmem] using hmapped
  · rw [if_neg hmem] at hlabel
    rw [label?_eq_none_iff.1 hlabel]
    simp [hmem]

theorem bucketOf_of_not_mem {axis : Axis} {value : UInt64} (h : value ∉ axis.values) :
    axis.bucketOf value = axis.unmapped := by
  have hnone : axis.values.findIdx? (· == value) = none :=
    List.findIdx?_eq_none_iff.2 fun v hv => beq_eq_false_iff_ne.2 fun heq => h (heq ▸ hv)
  rw [bucketOf, hnone, Option.getD_none]

/-- Only values that are not listed share a bucket. -/
theorem bucketOf_eq_iff {axis : Axis} {v w : UInt64} :
    axis.bucketOf v = axis.bucketOf w ↔ v = w ∨ v ∉ axis.values ∧ w ∉ axis.values := by
  constructor
  · intro hbucket
    have hlabel := congrArg axis.label? hbucket
    rw [label?_bucketOf, label?_bucketOf] at hlabel
    by_cases hv : v ∈ axis.values <;> by_cases hw : w ∈ axis.values
    · rw [if_pos hv, if_pos hw] at hlabel
      exact Or.inl (Decimal.text_inj.1 (Option.some.inj hlabel))
    · rw [if_pos hv, if_neg hw] at hlabel
      exact nomatch hlabel
    · rw [if_neg hv, if_pos hw] at hlabel
      exact nomatch hlabel
    · exact Or.inr ⟨hv, hw⟩
  · rintro (rfl | ⟨hv, hw⟩)
    · rfl
    · rw [bucketOf_of_not_mem hv, bucketOf_of_not_mem hw]

variable {axis : Axis} {seen values : List UInt64} {v value : UInt64} {i : Nat} {name : String}

/-- The bucket of a listed value is the first place where it stands. -/
theorem bucketOf_of_getElem? (h : axis.values[i]? = some value) :
    axis.values[axis.bucketOf value]? = some value ∧ axis.bucketOf value ≤ i := by
  obtain ⟨hi, hvalue⟩ := List.getElem?_eq_some_iff.1 h
  unfold bucketOf
  cases hfind : axis.values.findIdx? (· == value) with
  | none =>
      have hmem : value ∈ axis.values := hvalue ▸ List.getElem_mem hi
      have hne := List.findIdx?_eq_none_iff.1 hfind value hmem
      simp at hne
  | some k =>
      obtain ⟨hk, heq, hleast⟩ := List.findIdx?_eq_some_iff_getElem.1 hfind
      rw [Option.getD_some]
      refine ⟨?_, ?_⟩
      · rw [List.getElem?_eq_getElem hk, eq_of_beq heq]
      · refine Nat.le_of_not_lt fun hlt => ?_
        have hnot := hleast i hlt
        simp [hvalue] at hnot

/-- A listed value has the bucket of its own place unless it stands at an earlier one too. -/
theorem mem_take_iff (h : axis.values[i]? = some value) :
    value ∈ axis.values.take i ↔ axis.bucketOf value ≠ i := by
  obtain ⟨hfirst, hle⟩ := bucketOf_of_getElem? h
  constructor
  · intro hmem heq
    obtain ⟨j, hj, hvalue⟩ := List.mem_take_iff_getElem.1 hmem
    have hle := (bucketOf_of_getElem? (List.getElem?_eq_some_iff.2 ⟨by omega, hvalue⟩)).2
    omega
  · intro hne
    refine List.mem_iff_getElem?.2 ⟨axis.bucketOf value, ?_⟩
    rw [List.getElem?_take_of_lt (by omega)]
    exact hfirst

/-! ## Repeated values -/

/-- The value at a place has been seen before the list, or stands at an earlier place of it. -/
def RepeatsAt (seen values : List UInt64) (i : Nat) (value : UInt64) : Prop :=
  values[i]? = some value ∧ (value ∈ seen ∨ value ∈ values.take i)

theorem repeatsAt_zero : RepeatsAt seen (v :: values) 0 value ↔ v = value ∧ value ∈ seen := by
  simp [RepeatsAt]

/-- A step of the search takes the first value over to those that have been seen. -/
theorem repeatsAt_succ :
    RepeatsAt seen (v :: values) (i + 1) value ↔ RepeatsAt (v :: seen) values i value := by
  simp [RepeatsAt, or_assoc, or_left_comm]

theorem firstRepeat?_eq_none_iff :
    firstRepeat? seen values = none ↔ ∀ i value, ¬ RepeatsAt seen values i value := by
  induction values generalizing seen with
  | nil => simp [firstRepeat?, RepeatsAt]
  | cons v values ih =>
      rw [firstRepeat?]
      by_cases hseen : v ∈ seen
      · simp only [List.contains_iff_mem, hseen, if_true, reduceCtorEq, false_iff]
        intro h
        exact h 0 v (repeatsAt_zero.2 ⟨rfl, hseen⟩)
      · rw [if_neg (by simpa using hseen), ih]
        constructor
        · intro h i value hrepeat
          cases i with
          | zero =>
              obtain ⟨rfl, hmem⟩ := repeatsAt_zero.1 hrepeat
              exact hseen hmem
          | succ i => exact h i value (repeatsAt_succ.1 hrepeat)
        · intro h i value hrepeat
          exact h (i + 1) value (repeatsAt_succ.2 hrepeat)

/-- The search gives the value at the least place where one repeats. -/
theorem firstRepeat?_eq_some_iff :
    firstRepeat? seen values = some value
      ↔ ∃ i, RepeatsAt seen values i value ∧ ∀ j < i, ∀ w, ¬ RepeatsAt seen values j w := by
  induction values generalizing seen with
  | nil => simp [firstRepeat?, RepeatsAt]
  | cons v values ih =>
      rw [firstRepeat?]
      by_cases hseen : v ∈ seen
      · have hfirst : RepeatsAt seen (v :: values) 0 v := repeatsAt_zero.2 ⟨rfl, hseen⟩
        rw [if_pos (by simpa using hseen), Option.some.injEq]
        constructor
        · rintro rfl
          exact ⟨0, hfirst, fun j hj => absurd hj (Nat.not_lt_zero j)⟩
        · rintro ⟨i, hrepeat, hleast⟩
          cases i with
          | zero => exact (repeatsAt_zero.1 hrepeat).1
          | succ i => exact absurd hfirst (hleast 0 (Nat.succ_pos i) v)
      · rw [if_neg (by simpa using hseen), ih]
        constructor
        · rintro ⟨i, hrepeat, hleast⟩
          refine ⟨i + 1, repeatsAt_succ.2 hrepeat, ?_⟩
          intro j hj w hw
          cases j with
          | zero =>
              obtain ⟨rfl, hmem⟩ := repeatsAt_zero.1 hw
              exact hseen hmem
          | succ j => exact hleast j (Nat.lt_of_succ_lt_succ hj) w (repeatsAt_succ.1 hw)
        · rintro ⟨i, hrepeat, hleast⟩
          cases i with
          | zero =>
              obtain ⟨rfl, hmem⟩ := repeatsAt_zero.1 hrepeat
              exact absurd hmem hseen
          | succ i =>
              refine ⟨i, repeatsAt_succ.1 hrepeat, ?_⟩
              intro j hj w hw
              exact hleast (j + 1) (Nat.succ_lt_succ hj) w (repeatsAt_succ.2 hw)

/-! ## The check -/

theorem check_eq_empty_iff {name : String} :
    axis.check = .error (.empty name) ↔ axis.values = [] ∧ name = axis.name := by
  unfold check
  by_cases hempty : axis.values = []
  · simp [hempty, eq_comm]
  · cases hrepeat : firstRepeat? [] axis.values <;> simp [hempty]

theorem check_eq_ok_iff :
    axis.check = .ok () ↔ axis.values ≠ [] ∧ firstRepeat? [] axis.values = none := by
  unfold check
  by_cases hempty : axis.values = []
  · simp [hempty]
  · cases hrepeat : firstRepeat? [] axis.values <;> simp [hempty]

theorem check_eq_duplicate_iff {name : String} :
    axis.check = .error (.duplicate name value)
      ↔ firstRepeat? [] axis.values = some value ∧ name = axis.name := by
  unfold check
  by_cases hempty : axis.values = []
  · simp [hempty, firstRepeat?]
  · cases hrepeat : firstRepeat? [] axis.values with
    | none => simp [hempty]
    | some v =>
        simp only [List.isEmpty_iff, hempty, if_false, Except.error.injEq, AxisError.duplicate.injEq,
          Option.some.injEq]
        exact ⟨fun h => ⟨h.2, h.1.symm⟩, fun h => ⟨h.2.symm, h.1⟩⟩

/-- Where a value stands twice, it repeats at a place that is not its bucket. -/
theorem repeatsAt_nil_iff :
    RepeatsAt [] axis.values i value ↔ axis.values[i]? = some value ∧ axis.bucketOf value ≠ i := by
  unfold RepeatsAt
  constructor
  · rintro ⟨hplace, hmem⟩
    exact ⟨hplace, (mem_take_iff hplace).1 (by simpa using hmem)⟩
  · rintro ⟨hplace, hne⟩
    exact ⟨hplace, Or.inr ((mem_take_iff hplace).2 hne)⟩

/-- **The check of an axis and the look-up in it agree.** A value has a bucket with a label, which is its own
    text, if it is listed, and the unmapped bucket if not. An axis with values passes the check if each of
    them has the bucket of its own place, and then every bucket with a label belongs to a single value. If
    not, the value at the first place that is not its bucket is reported. -/
theorem check_agrees_with_bucketOf (axis : Axis) :
    (∀ value, (axis.isUnmapped (axis.bucketOf value) = false ↔ value ∈ axis.values)
        ∧ axis.label? (axis.bucketOf value)
            = (if value ∈ axis.values then some (Decimal.text value) else none)
        ∧ (axis.bucketOf value = axis.unmapped ↔ value ∉ axis.values))
      ∧ (∀ name, axis.check = .error (.empty name) ↔ axis.values = [] ∧ name = axis.name)
      ∧ (axis.check = .ok ()
          ↔ axis.values ≠ [] ∧ ∀ i value, axis.values[i]? = some value → axis.bucketOf value = i)
      ∧ (axis.check = .ok () → ∀ bucket, axis.isUnmapped bucket = false →
          ∃ value ∈ axis.values, ∀ other, axis.bucketOf other = bucket ↔ other = value)
      ∧ ∀ name value, axis.check = .error (.duplicate name value)
          ↔ name = axis.name ∧ ∃ i, axis.values[i]? = some value ∧ axis.bucketOf value ≠ i
              ∧ ∀ j < i, ∀ earlier, axis.values[j]? = some earlier → axis.bucketOf earlier = j := by
  have hok : axis.check = .ok ()
      ↔ axis.values ≠ [] ∧ ∀ i value, axis.values[i]? = some value → axis.bucketOf value = i := by
    rw [check_eq_ok_iff, firstRepeat?_eq_none_iff]
    simp only [repeatsAt_nil_iff, not_and, Decidable.not_not]
  refine ⟨?_, fun name => check_eq_empty_iff, hok, ?_, ?_⟩
  · intro value
    refine ⟨?_, label?_bucketOf axis value, ?_⟩
    · rw [isUnmapped_bucketOf]
      simp
    · constructor
      · intro hbucket hmem
        have hmapped := isUnmapped_bucketOf axis value
        rw [hbucket] at hmapped
        simp [isUnmapped, hmem] at hmapped
      · exact bucketOf_of_not_mem
  · intro hcheck bucket hbucket
    -- The value at the place of the bucket is the only one that is sent there.
    have hlt : bucket < axis.values.length := Nat.lt_of_not_le (of_decide_eq_false hbucket)
    obtain ⟨value, hplace⟩ : ∃ value, axis.values[bucket]? = some value :=
      ⟨axis.values[bucket], List.getElem?_eq_getElem hlt⟩
    have hmem : value ∈ axis.values := List.mem_of_getElem? hplace
    have hown : axis.bucketOf value = bucket := (hok.1 hcheck).2 bucket value hplace
    refine ⟨value, hmem, fun other => ?_⟩
    rw [← hown, bucketOf_eq_iff]
    simp [hmem]
  · intro name value
    rw [check_eq_duplicate_iff, firstRepeat?_eq_some_iff, and_comm]
    simp only [repeatsAt_nil_iff, not_and, Decidable.not_not, and_assoc]

theorem check_agrees_with_bucketOf_instances :
    Axis.syscallInstances.check = .ok () ∧ Axis.syscallInstances.isUnmapped 4 = false
      ∧ ∃ value ∈ Axis.syscallInstances.values,
          ∀ other, Axis.syscallInstances.bucketOf other = 4 ↔ other = value :=
  ⟨rfl, rfl, (check_agrees_with_bucketOf Axis.syscallInstances).2.2.2.1 rfl 4 rfl⟩

example : Axis.check ⟨"dup", [1, 2, 2, 1]⟩ = .error (.duplicate "dup" 2) := rfl

end Axis

end BenchLog
