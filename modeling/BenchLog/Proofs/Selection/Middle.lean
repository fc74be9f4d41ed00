import Mathlib.Logic.Equiv.Basic
import BenchLog.Proofs.Selection.Real
import BenchLog.Selection

/-!
# `BenchLog.Proofs.Selection.Middle` — the chosen one of three lies between the others

The rule for three samples tries the places one after the other, each in both directions. Here it is told
without an order of places: a sample is *inner* if of the other two one is smaller and one is larger. In a
strict order no two samples are inner, so it does not matter which place is tried first, and a permutation of
the samples only moves the chosen place along. Nothing else is asked of the order. Samples need not compare,
but where two of them do not, none of the three is inner.

## Contents
- `Triple.Inner`, `Triple.permute`;
- `Triple.inner_iff_between`, what the rule tests;
- `Triple.Inner.unique`, `Triple.Inner.comparable`, `Triple.exists_inner`, `Triple.inner_permute`;
- `middle_cases`, `middle_eq_ok_iff`, `middle_permute`: what the rule chooses;
- `middle_strictly_between`.
-/

namespace BenchLog

namespace Triple

variable {α : Type} {t : Triple α} {i j k : Fin 3}

/-- The samples at other places: the one at `σ i` comes to `i`. -/
def permute (t : Triple α) (σ : Equiv.Perm (Fin 3)) : Triple α := .ofFn fun i => t.get (σ i)

theorem get_permute (t : Triple α) (σ : Equiv.Perm (Fin 3)) (i : Fin 3) :
    (t.permute σ).get i = t.get (σ i) := get_ofFn _ i

/-- Besides three distinct places there is no other. -/
theorem place_eq (hij : i ≠ j) (hik : i ≠ k) (hjk : j ≠ k) (x : Fin 3) : x = i ∨ x = j ∨ x = k := by
  omega

variable [LT α]

/-- Of the other two samples one is smaller than the one at this place and one is larger. -/
def Inner (t : Triple α) (i : Fin 3) : Prop :=
  ∃ j k, i ≠ j ∧ i ≠ k ∧ j ≠ k ∧ t.get j < t.get i ∧ t.get i < t.get k

/-- The rule tests one place against the other two, in either direction. -/
theorem inner_iff_between [DecidableLT α] (hij : i ≠ j) (hik : i ≠ k) (hjk : j ≠ k) :
    t.Inner i ↔ Selection.between (t.get i) (t.get j) (t.get k) = true := by
  simp only [Selection.between, Bool.or_eq_true, Bool.and_eq_true, decide_eq_true_eq]
  constructor
  · rintro ⟨j', k', hij', hik', hjk', hlo, hhi⟩
    have hj : j' = j ∨ j' = k := (place_eq hij hik hjk j').resolve_left (Ne.symm hij')
    have hk : k' = j ∨ k' = k := (place_eq hij hik hjk k').resolve_left (Ne.symm hik')
    rcases hj with rfl | rfl <;> rcases hk with rfl | rfl
    · exact absurd rfl hjk'
    · exact Or.inl ⟨hlo, hhi⟩
    · exact Or.inr ⟨hlo, hhi⟩
    · exact absurd rfl hjk'
  · rintro (⟨hlo, hhi⟩ | ⟨hlo, hhi⟩)
    · exact ⟨j, k, hij, hik, hjk, hlo, hhi⟩
    · exact ⟨k, j, hik, hij, Ne.symm hjk, hlo, hhi⟩

/-- Which sample is inner has nothing to do with the places. -/
theorem inner_permute (σ : Equiv.Perm (Fin 3)) : (t.permute σ).Inner i ↔ t.Inner (σ i) := by
  unfold Inner
  simp only [get_permute]
  constructor
  · rintro ⟨j, k, hij, hik, hjk, hlo, hhi⟩
    exact ⟨σ j, σ k, σ.injective.ne hij, σ.injective.ne hik, σ.injective.ne hjk, hlo, hhi⟩
  · rintro ⟨j, k, hij, hik, hjk, hlo, hhi⟩
    obtain ⟨j, rfl⟩ := σ.surjective j
    obtain ⟨k, rfl⟩ := σ.surjective k
    exact ⟨j, k, ne_of_apply_ne σ hij, ne_of_apply_ne σ hik, ne_of_apply_ne σ hjk, hlo, hhi⟩

/-- Of three samples that compare with each other one is inner. -/
theorem exists_inner (h : ∀ a b : Fin 3, a ≠ b → t.get a < t.get b ∨ t.get b < t.get a) :
    ∃ i, t.Inner i := by
  have inner {i j k : Fin 3} (hne : i ≠ j ∧ i ≠ k ∧ j ≠ k) (hlo : t.get j < t.get i)
      (hhi : t.get i < t.get k) : ∃ i, t.Inner i := ⟨i, j, k, hne.1, hne.2.1, hne.2.2, hlo, hhi⟩
  rcases h 0 1 (by decide) with h01 | h10
  · rcases h 1 2 (by decide) with h12 | h21
    · exact inner (by decide) h01 h12
    · rcases h 0 2 (by decide) with h02 | h20
      · exact inner (by decide) h02 h21
      · exact inner (by decide) h20 h01
  · rcases h 1 2 (by decide) with h12 | h21
    · rcases h 0 2 (by decide) with h02 | h20
      · exact inner (by decide) h10 h02
      · exact inner (by decide) h12 h20
    · exact inner (by decide) h21 h10

variable [IsStrictOrder α (· < ·)]

theorem get_lt_trans (h : t.get i < t.get j) (h' : t.get j < t.get k) : t.get i < t.get k :=
  IsTrans.trans _ _ _ h h'

theorem ne_of_get_lt (h : t.get i < t.get j) : i ≠ j := by
  rintro rfl
  exact irrefl (t.get i) h

/-- Where a sample is inner, any two of the three compare. -/
theorem Inner.comparable (h : t.Inner i) {a b : Fin 3} (hab : a ≠ b) :
    t.get a < t.get b ∨ t.get b < t.get a := by
  obtain ⟨j, k, hij, hik, hjk, hlo, hhi⟩ := h
  have hends : t.get j < t.get k := get_lt_trans hlo hhi
  rcases place_eq hij hik hjk a with rfl | rfl | rfl <;>
    rcases place_eq hij hik hjk b with rfl | rfl | rfl <;>
    first | exact absurd rfl hab | exact Or.inl ‹_› | exact Or.inr ‹_›

/-- Of two inner samples neither is smaller: there would be a smaller one below and a larger one above the two,
    four samples in all. -/
theorem Inner.not_lt (h : t.Inner i) (h' : t.Inner j) : ¬t.get j < t.get i := by
  intro hji
  obtain ⟨_, k, _, _, _, _, hik⟩ := h
  obtain ⟨l, _, _, _, _, hlj, _⟩ := h'
  have hli : t.get l < t.get i := get_lt_trans hlj hji
  have hjk : t.get j < t.get k := get_lt_trans hji hik
  have hlk : t.get l < t.get k := get_lt_trans hlj hjk
  rcases place_eq (ne_of_get_lt hlj) (ne_of_get_lt hli) (ne_of_get_lt hji) k with rfl | rfl | rfl
  · exact ne_of_get_lt hlk rfl
  · exact ne_of_get_lt hjk rfl
  · exact ne_of_get_lt hik rfl

/-- At most one sample is inner. -/
theorem Inner.unique (h : t.Inner i) (h' : t.Inner j) : i = j := by
  refine Decidable.byContradiction fun hne => ?_
  rcases h.comparable hne with hij | hji
  · exact h'.not_lt h hij
  · exact h.not_lt h' hji

end Triple

namespace Selection

variable {α : Type} [LT α] [DecidableLT α] {t : Triple α} {i : Fin 3}

/-! ## What the rule chooses -/

/-- The rule gives an inner sample, or says that there is none. -/
theorem middle_cases (t : Triple α) :
    (∃ i, t.Inner i ∧ middle t = .ok i)
      ∨ ((∀ i, ¬t.Inner i) ∧ middle t = .error (.ambiguous 3)) := by
  have inner (i j k : Fin 3) (hij : i ≠ j) (hik : i ≠ k) (hjk : j ≠ k) :
      t.Inner i ↔ between (t.get i) (t.get j) (t.get k) = true :=
    Triple.inner_iff_between hij hik hjk
  have inner₀ : t.Inner 0 ↔ between t.first t.second t.third = true :=
    inner 0 1 2 (by decide) (by decide) (by decide)
  have inner₁ : t.Inner 1 ↔ between t.second t.first t.third = true :=
    inner 1 0 2 (by decide) (by decide) (by decide)
  have inner₂ : t.Inner 2 ↔ between t.third t.first t.second = true :=
    inner 2 0 1 (by decide) (by decide) (by decide)
  unfold middle
  by_cases h₀ : between t.first t.second t.third = true
  · exact Or.inl ⟨0, inner₀.2 h₀, if_pos h₀⟩
  · rw [if_neg h₀]
    by_cases h₁ : between t.second t.first t.third = true
    · exact Or.inl ⟨1, inner₁.2 h₁, if_pos h₁⟩
    · rw [if_neg h₁]
      by_cases h₂ : between t.third t.first t.second = true
      · exact Or.inl ⟨2, inner₂.2 h₂, if_pos h₂⟩
      · refine Or.inr ⟨fun i => ?_, if_neg h₂⟩
        match i with
        | 0 => exact mt inner₀.1 h₀
        | 1 => exact mt inner₁.1 h₁
        | 2 => exact mt inner₂.1 h₂

theorem middle_eq_ambiguous_iff : middle t = .error (.ambiguous 3) ↔ ∀ i, ¬t.Inner i := by
  rcases middle_cases t with ⟨j, hinner, hmiddle⟩ | ⟨hnone, hmiddle⟩
  · rw [hmiddle]
    exact iff_of_false (fun h => nomatch h) fun h => h j hinner
  · exact ⟨fun _ => hnone, fun _ => hmiddle⟩

section StrictOrder

variable [IsStrictOrder α (· < ·)]

theorem middle_eq_ok_iff : middle t = .ok i ↔ t.Inner i := by
  rcases middle_cases t with ⟨j, hinner, hmiddle⟩ | ⟨hnone, hmiddle⟩
  · rw [hmiddle, Except.ok.injEq]
    exact ⟨fun heq => heq ▸ hinner, fun h => hinner.unique h⟩
  · rw [hmiddle]
    exact iff_of_false (fun h => nomatch h) (hnone i)

/-- Some sample is chosen if any two of the three compare. -/
theorem exists_middle_eq_ok_iff :
    (∃ i, middle t = .ok i) ↔ ∀ a b : Fin 3, a ≠ b → t.get a < t.get b ∨ t.get b < t.get a := by
  simp only [middle_eq_ok_iff]
  exact ⟨fun ⟨_, h⟩ _ _ hab => h.comparable hab, Triple.exists_inner⟩

/-- A permutation of the samples moves the chosen place along. -/
theorem middle_permute (t : Triple α) (σ : Equiv.Perm (Fin 3)) :
    middle (t.permute σ) = (middle t).map σ.symm := by
  rcases middle_cases t with ⟨i, hinner, hmiddle⟩ | ⟨hnone, hmiddle⟩
  · rw [hmiddle]
    apply middle_eq_ok_iff.2
    rwa [Triple.inner_permute, Equiv.apply_symm_apply]
  · rw [hmiddle]
    exact middle_eq_ambiguous_iff.2 fun i => fun h => hnone _ ((Triple.inner_permute σ).1 h)

end StrictOrder

/-- **The chosen one of three lies strictly between the other two**, in any strict order, whether or not all
    samples compare. A place is chosen exactly if the sample there is inner, at most one is, and where none is
    the samples are ambiguous. Any two samples must compare for one to be chosen, so two that are tied, or are
    no numbers, leave nothing to choose; in a total order it is enough that the three differ. A permutation of
    the samples moves the chosen place along with the sample: what is chosen, or that nothing is, does not
    depend on the places. -/
theorem middle_strictly_between {α : Type} [LT α] [DecidableLT α] [IsStrictOrder α (· < ·)]
    (t : Triple α) :
    (∀ i, middle t = .ok i ↔ t.Inner i)
      ∧ (∀ i j, t.Inner i → t.Inner j → i = j)
      ∧ (middle t = .error (.ambiguous 3) ↔ ∀ i, ¬t.Inner i)
      ∧ (∀ i j, i ≠ j → ¬t.get i < t.get j → ¬t.get j < t.get i → middle t = .error (.ambiguous 3))
      ∧ ((∀ x y : α, x < y ∨ x = y ∨ y < x) →
          ((∃ i, middle t = .ok i) ↔ ∀ i j, i ≠ j → t.get i ≠ t.get j))
      ∧ ∀ σ : Equiv.Perm (Fin 3),
          middle (t.permute σ) = (middle t).map σ.symm
            ∧ (middle (t.permute σ)).map (t.permute σ).get = (middle t).map t.get := by
  refine ⟨fun i => middle_eq_ok_iff, fun i j h h' => h.unique h', middle_eq_ambiguous_iff,
    fun i j hij hlt hgt => ?_, fun htotal => ?_, fun σ => ⟨middle_permute t σ, ?_⟩⟩
  · refine middle_eq_ambiguous_iff.2 fun k hinner => ?_
    exact (hinner.comparable hij).elim hlt hgt
  · rw [exists_middle_eq_ok_iff]
    constructor
    · intro hcompare i j hij heq
      rcases hcompare i j hij with hlt | hgt
      · exact irrefl (t.get j) (heq ▸ hlt)
      · exact irrefl (t.get j) (heq ▸ hgt)
    · intro hne i j hij
      rcases htotal (t.get i) (t.get j) with hlt | heq | hgt
      · exact Or.inl hlt
      · exact absurd heq (hne i j hij)
      · exact Or.inr hgt
  · rw [middle_permute]
    cases middle t with
    | error reason => rfl
    | ok i => exact congrArg Except.ok ((Triple.get_permute t σ _).trans (by rw [Equiv.apply_symm_apply]))

/-- A first sample above both others; the same with the first two exchanged; one that is not a number; and three
    that differ in a total order. -/
theorem middle_strictly_between_nan :
    IsStrictOrder Float (· < ·)
      ∧ (⟨100.0, 30.0, 15.0⟩ : Triple Float).Inner 1
      ∧ middle (⟨30.0, 100.0, 15.0⟩ : Triple Float) = .ok 0
      ∧ (¬(0.0 / 0.0 : Float) < 15.0 ∧ ¬(15.0 : Float) < 0.0 / 0.0
          ∧ middle (⟨30.0, 0.0 / 0.0, 15.0⟩ : Triple Float) = .error (.ambiguous 3))
      ∧ ∃ i, middle (⟨8, 9, 7⟩ : Triple Nat) = .ok i := by
  obtain ⟨hinner, _, _, _, _, hpermute⟩ := middle_strictly_between (⟨100.0, 30.0, 15.0⟩ : Triple Float)
  obtain ⟨_, _, _, hapart, _⟩ := middle_strictly_between (⟨30.0, 0.0 / 0.0, 15.0⟩ : Triple Float)
  obtain ⟨_, _, _, _, hdistinct, _⟩ := middle_strictly_between (⟨8, 9, 7⟩ : Triple Nat)
  refine ⟨inferInstance, (hinner 1).1 (by decide), ?_, ⟨by decide, by decide, ?_⟩, ?_⟩
  · have hmoved := (hpermute (Equiv.swap 0 1)).1
    rw [(hinner 1).2 ((hinner 1).1 (by decide))] at hmoved
    exact hmoved
  · exact hapart 1 2 (by decide) (by decide) (by decide)
  · exact (hdistinct Nat.lt_trichotomy).2 (by decide)

end Selection

end BenchLog
