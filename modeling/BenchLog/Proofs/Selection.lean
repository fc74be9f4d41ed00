import BenchLog.Selection
import Mathlib.Data.List.Sort

/-!
# `BenchLog.Proofs.Selection` — the chosen one of five in the order of the samples

The rule for five samples counts, for each of them, how many are smaller; it never puts them in order. Here it
is told what it chooses in their order. In an ascending list the values smaller than a given one stand at its
front, so their number says between which two places of the order the given one falls: three are smaller than a
sample exactly if the sample is the fourth in the order and is larger than the third. Ties among the lowest
three and between the highest two therefore do no harm, a tie of the third with the fourth leaves no sample to
choose, and neither depends on where in the section the samples stand.

## Contents
- `lt_countP_iff`: in an ascending list, a place against the number of smaller values;
- `byRank_congr`, keys that compare alike; `length_of_byRank_eq_ok`;
- `byRank_map`, the keys in the place of the samples;
- `ascending`, the keys of some samples in order; `ascending_of_monotone`, rounding before or after;
- `below_eq_smallerCount_iff`: what the rule counts, in that order;
- `byRank_eq_ok_iff`, `exists_byRank_eq_ok_iff`, `byRank_eq_ambiguous_iff`: the choice by that order;
- `byRank_order_statistic`.
-/

namespace BenchLog

namespace Selection

/-! ## Places in an ascending list -/

section Ascending

variable {α : Type} [LinearOrder α]

/-- Behind a value that is not smaller than `x` nothing in an ascending list is. -/
theorem countP_eq_zero_of_head {a x : α} {l : List α} (h : ∀ b ∈ l, a ≤ b) (ha : ¬a < x) :
    l.countP (· < x) = 0 := by
  rw [List.countP_eq_zero]
  intro b hb hlt
  exact ha (lt_of_le_of_lt (h b hb) (of_decide_eq_true hlt))

/-- In an ascending list the values smaller than `x` are those at its front. -/
theorem lt_countP_iff {l : List α} (h : l.Pairwise (· ≤ ·)) {k : Nat} {s : α} (hk : l[k]? = some s)
    (x : α) : k < l.countP (· < x) ↔ s < x := by
  induction l generalizing k with
  | nil => exact nomatch hk
  | cons a l ih =>
      obtain ⟨hhead, htail⟩ := List.pairwise_cons.1 h
      rw [List.countP_cons]
      by_cases ha : a < x
      · cases k with
        | zero =>
            obtain rfl : a = s := Option.some.inj hk
            simp [ha]
        | succ k =>
            rw [← ih htail hk]
            simp [ha]
      · have hnone : l.countP (· < x) = 0 := countP_eq_zero_of_head hhead ha
        have hs : ¬s < x := by
          rcases List.mem_cons.1 (List.mem_of_getElem? hk) with rfl | hmem
          · exact ha
          · exact fun hlt => ha (lt_of_le_of_lt (hhead s hmem) hlt)
        simp [ha, hs, hnone]

end Ascending

/-! ## Keys that compare alike -/

/-- Only the order of the keys matters, not the keys. -/
theorem byRank_congr {α α' β : Type} [LT α] [DecidableLT α] [LT α'] [DecidableLT α'] {key : β → α}
    {key' : β → α'} (h : ∀ s t, key s < key t ↔ key' s < key' t) (samples : List β) :
    byRank key samples = byRank key' samples := by
  have hbelow : ∀ s, below key samples (key s) = below key' samples (key' s) := by
    intro s
    unfold below
    exact List.countP_congr fun t _ => by simp [h]
  unfold byRank
  simp only [hbelow]

/-- Where a sample is chosen, there were five to choose from. -/
theorem length_of_byRank_eq_ok {α β : Type} [LT α] [DecidableLT α] {key : β → α} {samples : List β}
    {i : Fin samples.length} (h : byRank key samples = .ok i) : samples.length = 5 := by
  unfold byRank at h
  by_cases hlength : samples.length = sampleCount
  · exact hlength
  · rw [if_neg hlength] at h
    exact nomatch h

/-! ## Keys in the place of the samples -/

section Map

variable {α β : Type} [LT α] [DecidableLT α]

/-- The choice as a plain position. -/
theorem map_val_byRank (key : β → α) (samples : List β) :
    (byRank key samples).map Fin.val
      = if samples.length = sampleCount then
          match samples.findIdx? fun s => below key samples (key s) == smallerCount with
          | some i => .ok i
          | none => .error (.ambiguous samples.length)
        else .error (.insufficient sampleCount samples.length) := by
  rw [List.findIdx?_eq_map_findFinIdx?_val]
  unfold byRank
  split
  · cases samples.findFinIdx? fun s => below key samples (key s) == smallerCount <;> rfl
  · rfl

/-- Ranking the keys is ranking the samples by their keys. -/
theorem byRank_map (key : β → α) (samples : List β) :
    (byRank id (samples.map key)).map Fin.val = (byRank key samples).map Fin.val := by
  have hbelow (x : α) : below id (samples.map key) x = below key samples x := List.countP_map
  rw [map_val_byRank, map_val_byRank, List.findIdx?_map, List.length_map]
  simp only [hbelow]
  rfl

end Map

/-! ## The choice by the order of the samples -/

section Order

variable {α β : Type} [LinearOrder α] {key : β → α} {samples : List β} {s₀ s₁ s₂ s₃ s₄ : α}

/-- The keys of some samples in ascending order, each as often as it occurs. -/
def ascending (key : β → α) (samples : List β) : List α := (samples.map key).insertionSort (· ≤ ·)

theorem pairwise_ascending (key : β → α) (samples : List β) :
    (ascending key samples).Pairwise (· ≤ ·) :=
  List.pairwise_insertionSort _ _

theorem ascending_perm (key : β → α) (samples : List β) :
    (ascending key samples).Perm (samples.map key) :=
  List.perm_insertionSort _ _

theorem length_ascending (key : β → α) (samples : List β) :
    (ascending key samples).length = samples.length := by
  rw [(ascending_perm key samples).length_eq, List.length_map]

/-- There is only one way to put keys in ascending order. -/
theorem ascending_eq_of_perm {keys : List α} (hsorted : keys.Pairwise (· ≤ ·))
    (hkeys : keys.Perm (samples.map key)) : ascending key samples = keys :=
  ((ascending_perm key samples).trans hkeys.symm).eq_of_pairwise' (pairwise_ascending key samples) hsorted

theorem ascending_congr {samples' : List β} (h : samples.Perm samples') :
    ascending key samples = ascending key samples' :=
  ascending_eq_of_perm (pairwise_ascending key samples')
    ((ascending_perm key samples').trans (h.map key).symm)

/-- Rounding that keeps the order may be done before or after the keys are put in order. -/
theorem ascending_of_monotone {γ : Type} [LinearOrder γ] {round : α → γ} (hround : Monotone round)
    {key' : β → γ} (h : ∀ s ∈ samples, key' s = round (key s)) :
    ascending key' samples = (ascending key samples).map round := by
  refine ascending_eq_of_perm ?_ ?_
  · exact (pairwise_ascending key samples).map round fun _ _ hle => hround hle
  · have hkeys : samples.map key' = (samples.map key).map round := by
      rw [List.map_map]
      exact List.map_congr_left h
    rw [hkeys]
    exact (ascending_perm key samples).map round

theorem length_of_ascending_eq (h : ascending key samples = [s₀, s₁, s₂, s₃, s₄]) :
    samples.length = 5 := by
  rw [← length_ascending key, h]
  rfl

theorem exists_ascending_eq (key : β → α) (h : samples.length = 5) :
    ∃ s₀ s₁ s₂ s₃ s₄, ascending key samples = [s₀, s₁, s₂, s₃, s₄] := by
  have hlength : (ascending key samples).length = 5 := by rw [length_ascending, h]
  match ascending key samples, hlength with
  | [s₀, s₁, s₂, s₃, s₄], _ => exact ⟨s₀, s₁, s₂, s₃, s₄, rfl⟩

/-- What the rule counts may be counted in ascending order. -/
theorem below_eq_countP (key : β → α) (samples : List β) (x : α) :
    below key samples x = (ascending key samples).countP (· < x) := by
  rw [(ascending_perm key samples).countP_eq, List.countP_map]
  rfl

/-- Of five keys, exactly three are smaller than one of them if that one is the fourth in ascending order and
    larger than the third. -/
theorem below_eq_smallerCount_iff (h : ascending key samples = [s₀, s₁, s₂, s₃, s₄]) {s : β}
    (hs : s ∈ samples) : below key samples (key s) = smallerCount ↔ s₂ < s₃ ∧ key s = s₃ := by
  have hsorted : [s₀, s₁, s₂, s₃, s₄].Pairwise (· ≤ ·) := h ▸ pairwise_ascending key samples
  have hthird : 2 < below key samples (key s) ↔ s₂ < key s := by
    rw [below_eq_countP, h]
    exact lt_countP_iff hsorted rfl _
  have hfourth : 3 < below key samples (key s) ↔ s₃ < key s := by
    rw [below_eq_countP, h]
    exact lt_countP_iff hsorted rfl _
  -- The key is one of the five, so it does not lie strictly between the third and the fourth.
  have hplace : key s ≤ s₂ ∨ s₃ ≤ key s := by
    have hmem : key s ∈ [s₀, s₁, s₂, s₃, s₄] :=
      h ▸ (ascending_perm key samples).mem_iff.2 (List.mem_map_of_mem hs)
    simp only [List.pairwise_cons, List.mem_cons] at hsorted
    simp only [List.mem_cons, List.not_mem_nil, or_false] at hmem
    obtain ⟨h₀, h₁, -, h₃, -⟩ := hsorted
    rcases hmem with heq | heq | heq | heq | heq
    · exact Or.inl (heq ▸ h₀ _ (by simp))
    · exact Or.inl (heq ▸ h₁ _ (by simp))
    · exact Or.inl heq.le
    · exact Or.inr heq.ge
    · exact Or.inr (heq ▸ h₃ _ (by simp))
  have hcount : below key samples (key s) = smallerCount ↔ s₂ < key s ∧ ¬s₃ < key s := by
    rw [← hthird, ← hfourth, smallerCount]
    omega
  rw [hcount]
  constructor
  · rintro ⟨hlt, hle⟩
    have heq : key s = s₃ := le_antisymm (not_lt.1 hle) (hplace.resolve_left (not_le.2 hlt))
    exact ⟨heq ▸ hlt, heq⟩
  · rintro ⟨hlt, heq⟩
    rw [heq]
    exact ⟨hlt, lt_irrefl _⟩

/-- A sample is chosen if its key is the fourth in ascending order, larger than the third, and it is the first
    sample with that key. -/
theorem byRank_eq_ok_iff (h : ascending key samples = [s₀, s₁, s₂, s₃, s₄])
    {i : Fin samples.length} :
    byRank key samples = .ok i
      ↔ s₂ < s₃ ∧ key samples[i] = s₃ ∧ ∀ j < i, key samples[j] ≠ s₃ := by
  have hrank : ∀ j : Fin samples.length,
      (below key samples (key samples[j]) == smallerCount) = true ↔ s₂ < s₃ ∧ key samples[j] = s₃ :=
    fun j => beq_iff_eq.trans (below_eq_smallerCount_iff h (List.getElem_mem j.2))
  have hfound : byRank key samples = .ok i
      ↔ samples.findFinIdx? (fun s => below key samples (key s) == smallerCount) = some i := by
    unfold byRank
    rw [if_pos (show samples.length = sampleCount from length_of_ascending_eq h)]
    cases samples.findFinIdx? fun s => below key samples (key s) == smallerCount <;> simp
  rw [hfound, List.findFinIdx?_eq_some_iff]
  constructor
  · rintro ⟨hi, hfirst⟩
    obtain ⟨hlt, heq⟩ := (hrank i).1 hi
    exact ⟨hlt, heq, fun j hj hkey => hfirst j hj ((hrank j).2 ⟨hlt, hkey⟩)⟩
  · rintro ⟨hlt, heq, hfirst⟩
    exact ⟨(hrank i).2 ⟨hlt, heq⟩, fun j hj hkey => hfirst j hj ((hrank j).1 hkey).2⟩

/-- Some sample is chosen if the fourth key in ascending order is larger than the third. -/
theorem exists_byRank_eq_ok_iff (h : ascending key samples = [s₀, s₁, s₂, s₃, s₄]) :
    (∃ i, byRank key samples = .ok i) ↔ s₂ < s₃ := by
  constructor
  · rintro ⟨i, hi⟩
    exact ((byRank_eq_ok_iff h).1 hi).1
  · intro hlt
    have hmem : s₃ ∈ samples.map key := (ascending_perm key samples).mem_iff.1 (by simp [h])
    obtain ⟨s, hs, hkey⟩ := List.mem_map.1 hmem
    cases hfind : samples.findFinIdx? fun s => decide (key s = s₃) with
    | none => exact absurd (decide_eq_true hkey) (List.findFinIdx?_eq_none_iff.1 hfind s hs)
    | some i =>
        obtain ⟨hi, hfirst⟩ := List.findFinIdx?_eq_some_iff.1 hfind
        refine ⟨i, (byRank_eq_ok_iff h).2 ⟨hlt, of_decide_eq_true hi, ?_⟩⟩
        exact fun j hj hkey => hfirst j hj (decide_eq_true hkey)

/-- The samples are ambiguous if the fourth key in ascending order is not larger than the third. -/
theorem byRank_eq_ambiguous_iff (h : ascending key samples = [s₀, s₁, s₂, s₃, s₄]) :
    byRank key samples = .error (.ambiguous 5) ↔ ¬s₂ < s₃ := by
  rw [← exists_byRank_eq_ok_iff h]
  have hlength : samples.length = sampleCount := length_of_ascending_eq h
  unfold byRank
  rw [if_pos hlength]
  cases samples.findFinIdx? fun s => below key samples (key s) == smallerCount with
  | none => simp [hlength, sampleCount]
  | some i => simp

end Order

/-! ## The rule as an order statistic -/

/-- **The chosen one of five is an order statistic.** The rule asks for five samples, and says so if there are
    fewer or more. Let `s₀, …, s₄` be the keys of five samples in ascending order. A sample is chosen exactly if
    `s₂ < s₃`, and it is the first one whose key is `s₃`; otherwise the samples are ambiguous. The order in
    which the samples come decides neither whether one is chosen nor what its key is. -/
theorem byRank_order_statistic {α β : Type} [LinearOrder α] (key : β → α) (samples : List β) :
    ((∃ expected found, byRank key samples = .error (.insufficient expected found))
        ↔ samples.length ≠ 5)
      ∧ (samples.length ≠ 5 → byRank key samples = .error (.insufficient 5 samples.length))
      ∧ (∀ s₀ s₁ s₂ s₃ s₄, ascending key samples = [s₀, s₁, s₂, s₃, s₄] →
          ((∃ i, byRank key samples = .ok i) ↔ s₂ < s₃)
            ∧ (∀ i, byRank key samples = .ok i
                → key samples[i] = s₃ ∧ ∀ j < i, key samples[j] ≠ s₃)
            ∧ (byRank key samples = .error (.ambiguous 5) ↔ ¬s₂ < s₃))
      ∧ ∀ samples' : List β, samples.Perm samples' →
          ((∃ i, byRank key samples = .ok i) ↔ ∃ j, byRank key samples' = .ok j)
            ∧ ∀ i j, byRank key samples = .ok i → byRank key samples' = .ok j
                → key samples[i] = key samples'[j] := by
  have hcount : samples.length ≠ 5 → byRank key samples = .error (.insufficient 5 samples.length) :=
    fun h => if_neg h
  refine ⟨⟨?_, fun h => ⟨_, _, hcount h⟩⟩, hcount, ?_, ?_⟩
  · rintro ⟨expected, found, herror⟩ hlength
    obtain ⟨s₀, s₁, s₂, s₃, s₄, h⟩ := exists_ascending_eq key hlength
    by_cases hlt : s₂ < s₃
    · obtain ⟨i, hi⟩ := (exists_byRank_eq_ok_iff h).2 hlt
      exact nomatch hi.symm.trans herror
    · exact nomatch ((byRank_eq_ambiguous_iff h).2 hlt).symm.trans herror
  · intro s₀ s₁ s₂ s₃ s₄ h
    exact ⟨exists_byRank_eq_ok_iff h, fun i hi => ((byRank_eq_ok_iff h).1 hi).2,
      byRank_eq_ambiguous_iff h⟩
  · intro samples' hperm
    by_cases hlength : samples.length = 5
    · -- Both lists have the same keys in ascending order.
      obtain ⟨s₀, s₁, s₂, s₃, s₄, h⟩ := exists_ascending_eq key hlength
      have h' : ascending key samples' = [s₀, s₁, s₂, s₃, s₄] := (ascending_congr hperm).symm.trans h
      refine ⟨?_, fun i j hi hj => ?_⟩
      · rw [exists_byRank_eq_ok_iff h, exists_byRank_eq_ok_iff h']
      · obtain ⟨-, hchosen, -⟩ := (byRank_eq_ok_iff h).1 hi
        obtain ⟨-, hchosen', -⟩ := (byRank_eq_ok_iff h').1 hj
        rw [hchosen, hchosen']
    · have hlength' : samples'.length ≠ 5 := hperm.length_eq ▸ hlength
      refine ⟨⟨?_, ?_⟩, fun i j hi _ => absurd (length_of_byRank_eq_ok hi) hlength⟩
      · rintro ⟨i, hi⟩
        exact absurd (length_of_byRank_eq_ok hi) hlength
      · rintro ⟨j, hj⟩
        exact absurd (length_of_byRank_eq_ok hj) hlength'

/-- Ties of the highest two and of two among the lowest three do no harm, wherever these samples stand. Two
    samples are too few. -/
theorem byRank_order_statistic_tied_pair :
    ascending id [2, 9, 2, 9, 3] = [2, 2, 3, 9, 9]
      ∧ (∃ i, byRank id [2, 9, 2, 9, 3] = .ok i)
      ∧ [2, 9, 2, 9, 3].Perm [9, 3, 2, 2, 9]
      ∧ (byRank id [2, 9, 2, 9, 3] = .ok (1 : Fin 5) ∧ byRank id [9, 3, 2, 2, 9] = .ok (0 : Fin 5)
          ∧ [2, 9, 2, 9, 3][(1 : Fin 5)] = [9, 3, 2, 2, 9][(0 : Fin 5)])
      ∧ [7, 8].length ≠ 5 ∧ byRank id [7, 8] = .error (.insufficient 5 2) := by
  have hsorted : ascending id [2, 9, 2, 9, 3] = [2, 2, 3, 9, 9] := by decide
  have hperm : [2, 9, 2, 9, 3].Perm [9, 3, 2, 2, 9] := by decide
  have hchosen : byRank id [2, 9, 2, 9, 3] = .ok (1 : Fin 5) := rfl
  have hchosen' : byRank id [9, 3, 2, 2, 9] = .ok (0 : Fin 5) := rfl
  obtain ⟨-, -, hrule, horder⟩ := byRank_order_statistic (id : Nat → Nat) [2, 9, 2, 9, 3]
  have hfew := (byRank_order_statistic (id : Nat → Nat) [7, 8]).2.1 (by decide)
  exact ⟨hsorted, (hrule 2 2 3 9 9 hsorted).1.2 (by decide), hperm,
    ⟨hchosen, hchosen', (horder _ hperm).2 _ _ hchosen hchosen'⟩, by decide, hfew⟩

end Selection

end BenchLog
