import BenchLog.Proofs.Section.Openings

/-!
# `BenchLog.Proofs.Section.Positions` — the lines of a section by their positions in the log

A section is searched as a list of its own, but what is said about it is said of positions in the log: the
first line of a kind from one position up to another, or all lines of a kind between the two. Any two
positions will do here; they need not be the bounds of a section that `sections` finds, they may lie in any
order, and they may lie past the end of the log.

## Contents
- `LineAt`, a line of a kind at a position; `Section.First`, the first such line between the bounds;
- `Section.getElem?_lines`, `drop_lines`, `lines_eq_cons_iff`, `any_lines`: the list of lines against the log;
- `findUntil_eq_some_iff`, `findUntil_eq_none_iff`: what the search up to a bound finds;
- `Section.select`, the lines of a kind between the bounds, and `Section.filter_lines`.
-/

namespace BenchLog

variable {p : String → Bool} {log : List String} {s : Section}

/-- The log has a line at a position, and `p` accepts it. -/
def LineAt (p : String → Bool) (log : List String) (i : Nat) : Prop :=
  ∃ line, log[i]? = some line ∧ p line = true

theorem lineAt_iff {line : String} {i : Nat} (hline : log[i]? = some line) :
    LineAt p log i ↔ p line = true := by
  unfold LineAt
  rw [hline]
  simp

theorem LineAt.exists_line {i : Nat} (h : LineAt p log i) : ∃ line, log[i]? = some line :=
  h.imp fun _ hline => hline.1

namespace Section

/-- The first position between the bounds at which `p` accepts a line. -/
structure First (p : String → Bool) (log : List String) (s : Section) (i : Nat) : Prop where
  covers : s.Covers i
  accepts : LineAt p log i
  least : ∀ j, s.first ≤ j → j < i → ¬LineAt p log j

/-! ## The list of lines against the log -/

theorem getElem?_lines (s : Section) (log : List String) (k : Nat) :
    (s.lines log)[k]? = if s.first + k ≤ s.last then log[s.first + k]? else none := by
  unfold lines
  by_cases hk : s.first + k ≤ s.last
  · rw [if_pos hk, List.getElem?_take_of_lt (by omega), List.getElem?_drop]
  · rw [if_neg hk, List.getElem?_take_eq_none (by omega)]

theorem drop_lines (s : Section) (log : List String) (k : Nat) :
    (s.lines log).drop k = (⟨s.first + k, s.last⟩ : Section).lines log := by
  show ((log.drop s.first).take (s.last + 1 - s.first)).drop k
    = (log.drop (s.first + k)).take (s.last + 1 - (s.first + k))
  rw [List.drop_take, List.drop_drop, Nat.sub_sub]

theorem lineAt_lines {k : Nat} :
    LineAt p (s.lines log) k ↔ s.first + k ≤ s.last ∧ LineAt p log (s.first + k) := by
  unfold LineAt
  rw [getElem?_lines]
  by_cases hk : s.first + k ≤ s.last <;> simp [hk]

/-- The first line of a section, if it has one, is the one at its lower bound. -/
theorem lines_eq_cons_iff {line : String} {rest : List String} :
    s.lines log = line :: rest
      ↔ s.first ≤ s.last ∧ log[s.first]? = some line
        ∧ (⟨s.first + 1, s.last⟩ : Section).lines log = rest := by
  have hhead : (s.lines log)[0]? = if s.first ≤ s.last then log[s.first]? else none :=
    s.getElem?_lines log 0
  rw [← s.drop_lines log 1]
  constructor
  · intro hlines
    rw [hlines, List.getElem?_cons_zero] at hhead
    by_cases hle : s.first ≤ s.last
    · rw [if_pos hle] at hhead
      refine ⟨hle, hhead.symm, ?_⟩
      rw [hlines]
      rfl
    · rw [if_neg hle] at hhead
      exact nomatch hhead
  · rintro ⟨hle, hline, hrest⟩
    rw [if_pos hle, hline] at hhead
    obtain ⟨hpos, hfirst⟩ := List.getElem?_eq_some_iff.1 hhead
    calc s.lines log = (s.lines log).drop 0 := (List.drop_zero).symm
      _ = (s.lines log)[0] :: (s.lines log).drop 1 := List.drop_eq_getElem_cons hpos
      _ = line :: rest := by rw [hfirst, hrest]

theorem lines_eq_cons_cons {line line' : String} (hle : s.first + 1 ≤ s.last)
    (hline : log[s.first]? = some line) (hline' : log[s.first + 1]? = some line') :
    s.lines log = line :: line' :: (⟨s.first + 2, s.last⟩ : Section).lines log :=
  lines_eq_cons_iff.2 ⟨by omega, hline, lines_eq_cons_iff.2 ⟨hle, hline', rfl⟩⟩

/-- A section has a line of a kind if the log has one between the bounds. -/
theorem any_lines : (s.lines log).any p = true ↔ ∃ i, s.Covers i ∧ LineAt p log i := by
  rw [List.any_eq_true]
  constructor
  · rintro ⟨line, hmem, hp⟩
    obtain ⟨k, hk⟩ := List.mem_iff_getElem?.1 hmem
    obtain ⟨hlast, hline⟩ := lineAt_lines.1 ⟨line, hk, hp⟩
    exact ⟨_, ⟨Nat.le_add_right _ _, hlast⟩, hline⟩
  · rintro ⟨i, ⟨hfirst, hlast⟩, hline⟩
    have hinside : LineAt p (s.lines log) (i - s.first) := by
      apply lineAt_lines.2
      rw [Nat.add_sub_cancel' hfirst]
      exact ⟨hlast, hline⟩
    obtain ⟨line, hmem, hp⟩ := hinside
    exact ⟨line, List.mem_of_getElem? hmem, hp⟩

end Section

/-! ## The search up to a bound -/

theorem findIdx?_eq_some_iff_lineAt {lines : List String} {k : Nat} :
    lines.findIdx? p = some k ↔ LineAt p lines k ∧ ∀ j < k, ¬LineAt p lines j := by
  rw [List.findIdx?_eq_some_iff_getElem]
  constructor
  · rintro ⟨hk, haccepts, hleast⟩
    refine ⟨⟨lines[k], List.getElem?_eq_getElem hk, haccepts⟩, ?_⟩
    rintro j hj ⟨line, hline, hp⟩
    obtain ⟨_, rfl⟩ := List.getElem?_eq_some_iff.1 hline
    exact hleast j hj hp
  · rintro ⟨⟨line, hline, haccepts⟩, hleast⟩
    obtain ⟨hk, rfl⟩ := List.getElem?_eq_some_iff.1 hline
    refine ⟨hk, haccepts, fun j hj hp => hleast j hj ⟨lines[j], ?_, hp⟩⟩
    exact List.getElem?_eq_getElem (by omega)

/-- The search goes through the lines between its bounds. -/
theorem findUntil_eq_findIdx? (p : String → Bool) (log : List String) (s : Section) :
    findUntil p log s.first s.last = ((s.lines log).findIdx? p).map (· + s.first) := by
  unfold findUntil Section.lines
  rw [List.drop_take]

/-- The search finds the first line of the kind between its bounds. -/
theorem findUntil_eq_some_iff {i : Nat} :
    findUntil p log s.first s.last = some i ↔ s.First p log i := by
  rw [findUntil_eq_findIdx?, Option.map_eq_some_iff]
  constructor
  · rintro ⟨k, hk, rfl⟩
    obtain ⟨hline, hleast⟩ := findIdx?_eq_some_iff_lineAt.1 hk
    obtain ⟨hlast, haccepts⟩ := Section.lineAt_lines.1 hline
    rw [Nat.add_comm] at hlast haccepts
    refine ⟨⟨Nat.le_add_left _ _, hlast⟩, haccepts, fun j hfirst hj haccepts' => ?_⟩
    refine hleast (j - s.first) (by omega) (Section.lineAt_lines.2 ?_)
    rw [Nat.add_sub_cancel' hfirst]
    exact ⟨by omega, haccepts'⟩
  · rintro ⟨⟨hfirst, hlast⟩, haccepts, hleast⟩
    refine ⟨i - s.first, findIdx?_eq_some_iff_lineAt.2 ⟨?_, fun j hj hline => ?_⟩, by omega⟩
    · apply Section.lineAt_lines.2
      rw [Nat.add_sub_cancel' hfirst]
      exact ⟨hlast, haccepts⟩
    · exact hleast (s.first + j) (by omega) (by omega) (Section.lineAt_lines.1 hline).2

/-- The search finds nothing if no line between its bounds is of the kind. -/
theorem findUntil_eq_none_iff :
    findUntil p log s.first s.last = none ↔ ∀ i, s.Covers i → ¬LineAt p log i := by
  rw [findUntil_eq_findIdx?, Option.map_eq_none_iff, ← Option.not_isSome_iff_eq_none,
    List.findIdx?_isSome, Section.any_lines, not_exists]
  exact forall_congr' fun i => not_and

/-! ## All lines of a kind -/

/-- The lines between the bounds that `p` accepts, in order. -/
def Section.select (p : String → Bool) (s : Section) (log : List String) : List String :=
  (log.zipIdx.filter fun (line, i) => s.first ≤ i ∧ i ≤ s.last ∧ p line).map Prod.fst

/-- Numbered from `n` on, the lines between two numbers are those from the first one on, up to the last. -/
theorem zipIdx_filter_bounds (log : List String) (first last n : Nat) :
    ((log.zipIdx n).filter fun (_, i) => first ≤ i ∧ i ≤ last).map Prod.fst
      = (log.drop (first - n)).take (last + 1 - max first n) := by
  induction log generalizing n with
  | nil => simp
  | cons line log ih =>
      rw [List.zipIdx_cons]
      by_cases hbefore : n < first
      · have hskip : first - n = (first - (n + 1)) + 1 := by omega
        have hmax : max first (n + 1) = max first n := by omega
        rw [List.filter_cons_of_neg (by simp; omega), ih, hskip, List.drop_succ_cons, hmax]
      · by_cases hinside : n ≤ last
        · have hstart : first - n = 0 ∧ first - (n + 1) = 0 := by omega
          have hcount : last + 1 - max first n = (last + 1 - max first (n + 1)) + 1 := by omega
          rw [List.filter_cons_of_pos (by simp; omega), List.map_cons, ih, hstart.1, hstart.2, hcount,
            List.drop_zero, List.drop_zero, List.take_succ_cons]
        · have hnone : last + 1 - max first n = 0 ∧ last + 1 - max first (n + 1) = 0 := by omega
          rw [List.filter_cons_of_neg (by simp; omega), ih, hnone.1, hnone.2, List.take_zero,
            List.take_zero]

/-- Picking lines from the list of a section is picking them by position. -/
theorem Section.filter_lines (p : String → Bool) (s : Section) (log : List String) :
    (s.lines log).filter p = s.select p log := by
  have hlines : s.lines log
      = (log.zipIdx.filter fun (_, i) => s.first ≤ i ∧ i ≤ s.last).map Prod.fst := by
    rw [zipIdx_filter_bounds, Nat.sub_zero, Nat.max_zero, lines]
  rw [hlines, List.filter_map, List.filter_filter, select]
  refine congrArg _ (List.filter_congr fun ⟨line, i⟩ _ => ?_)
  simp only [Function.comp_apply]
  by_cases hp : p line <;> simp [hp]

end BenchLog
