import Mathlib.Order.Bounds.Basic
import BenchLog.Proofs.Mining.Cursor

/-!
# `BenchLog.Proofs.Mining.SearchBounds` — a search cut off at a bound

The sections of a log are found by a search that goes on to its last line, what a section holds by one that
gives up behind a bound. Both go down the numbered lines of the log. The first passes over the lines before
its start; the second leaves out the lines behind its bound before it does so, and takes the largest word for
the number of lines to look at where that number does not fit into a word. The bound may lie before the start
or past the end of the log.

The two are not compared with each other but with the positions they look for. Whether a position is the
least one of its kind is decided by the lines in front of it, so a bound behind it has no say in the matter. A
bound in front of it leaves no position at all, for every other one lies further down.

## Contents
- `firstNumber`, `find_eq_firstNumber`, `findWithin_eq_firstNumber`: searches among numbered lines;
- `acceptedFrom`, `find_eq_some_iff_isLeast`, `find_eq_none_iff_eq_empty`: what the search to the end finds;
- `Section.first_iff_isLeast`, `findUntil_eq_filter`: the same up to a bound;
- `searches_agree`.
-/

namespace BenchLog

variable {limit start last i : Nat} {p : String → Bool} {log : List String} {s : Section}

/-! ## Numbered lines -/

/-- The number of the first line that `p` accepts. -/
def firstNumber (p : String → Bool) (lines : List (String × Nat)) : Option Nat :=
  (lines.find? (p ·.1)).map (·.2)

theorem firstNumber_cons (p : String → Bool) (line : String) (n : Nat) (lines : List (String × Nat)) :
    firstNumber p ((line, n) :: lines) = if p line then some n else firstNumber p lines := by
  unfold firstNumber
  rw [List.find?_cons]
  cases p line <;> rfl

/-- Among lines that are numbered from `n` on, the number found is `n` more than the position. -/
theorem firstNumber_zipIdx (p : String → Bool) (lines : List String) (n : Nat) :
    firstNumber p (lines.zipIdx n) = (lines.findIdx? p).map (· + n) := by
  induction lines generalizing n with
  | nil => rfl
  | cons line lines ih =>
      rw [List.zipIdx_cons, firstNumber_cons, List.findIdx?_cons, ih]
      cases p line with
      | true => exact congrArg some (Nat.zero_add n).symm
      | false =>
          simp only [Bool.false_eq_true, if_false, Option.map_map]
          refine congrArg (Option.map · _) (funext fun k => ?_)
          show k + (n + 1) = k + 1 + n
          omega

theorem drop_zipIdx (log : List String) (k : Nat) : log.zipIdx.drop k = (log.drop k).zipIdx k := by
  apply List.ext_getElem?
  intro i
  rw [List.getElem?_drop, List.getElem?_zipIdx, List.getElem?_zipIdx, List.getElem?_drop, Nat.zero_add]

theorem take_zipIdx (log : List String) (k : Nat) : log.zipIdx.take k = (log.take k).zipIdx := by
  apply List.ext_getElem?
  intro i
  rw [List.getElem?_zipIdx, List.getElem?_take, List.getElem?_take, List.getElem?_zipIdx]
  split <;> rfl

theorem find_eq_firstNumber (p : String → Bool) (log : List String) (start : Nat) :
    find p log start = firstNumber p (log.zipIdx.drop start) := by
  rw [find, drop_zipIdx, firstNumber_zipIdx]

theorem findWithin_eq_firstNumber (limit : Nat) (p : String → Bool) (log : List String) (start last : Nat) :
    findWithin limit p log start last
      = firstNumber p ((log.zipIdx.take (min (last + 1) limit)).drop start) := by
  rw [findWithin, take_zipIdx, drop_zipIdx, firstNumber_zipIdx]

/-! ## The search to the end -/

/-- The positions from `start` on at which the log has a line that `p` accepts. -/
def acceptedFrom (p : String → Bool) (log : List String) (start : Nat) : Set Nat :=
  {i | start ≤ i ∧ LineAt p log i}

theorem find_eq_some_iff_isLeast : find p log start = some i ↔ IsLeast (acceptedFrom p log start) i := by
  rw [find_eq_some_iff, mem_openings]
  constructor
  · rintro ⟨hline, hstart, hleast⟩
    exact ⟨⟨hstart, hline⟩, fun j hj => hleast j (mem_openings.2 hj.2) hj.1⟩
  · rintro ⟨⟨hstart, hline⟩, hleast⟩
    exact ⟨hline, hstart, fun j hj hstart' => hleast ⟨hstart', mem_openings.1 hj⟩⟩

theorem find_eq_none_iff_eq_empty : find p log start = none ↔ acceptedFrom p log start = ∅ := by
  rw [find_eq_none_iff, Set.eq_empty_iff_forall_notMem]
  constructor
  · rintro hbefore i ⟨hstart, hline⟩
    exact Nat.not_lt_of_le hstart (hbefore i (mem_openings.2 hline))
  · intro hnone i hi
    exact Nat.lt_of_not_le fun hstart => hnone i ⟨hstart, mem_openings.1 hi⟩

/-! ## The search up to a bound -/

/-- The first position between two bounds is the least one from the lower bound on, provided that it does not
lie behind the upper one. -/
theorem Section.first_iff_isLeast :
    s.First p log i ↔ IsLeast (acceptedFrom p log s.first) i ∧ i ≤ s.last := by
  constructor
  · rintro ⟨⟨hfirst, hlast⟩, haccepts, hleast⟩
    refine ⟨⟨⟨hfirst, haccepts⟩, ?_⟩, hlast⟩
    rintro j ⟨hj, hline⟩
    exact Nat.le_of_not_lt fun hlt => hleast j hj hlt hline
  · rintro ⟨⟨⟨hfirst, haccepts⟩, hleast⟩, hlast⟩
    refine ⟨⟨hfirst, hlast⟩, haccepts, fun j hj hlt hline => ?_⟩
    exact Nat.not_lt_of_le (hleast ⟨hj, hline⟩) hlt

theorem findUntil_eq_filter (p : String → Bool) (log : List String) (start last : Nat) :
    findUntil p log start last = (find p log start).filter (· ≤ last) := by
  ext i
  calc findUntil p log start last = some i
      ↔ (⟨start, last⟩ : Section).First p log i := findUntil_eq_some_iff (s := ⟨start, last⟩)
    _ ↔ IsLeast (acceptedFrom p log start) i ∧ i ≤ last := Section.first_iff_isLeast
    _ ↔ (find p log start).filter (· ≤ last) = some i := by
        rw [Option.filter_eq_some_iff, find_eq_some_iff_isLeast, decide_eq_true_iff]

/-- **The search up to a bound is the search to the end, cut off at the bound.** Let `limit` be the largest
    word and the log be no longer. From any position on, the search to the end finds the least position at
    which the log has a line of the kind, and nothing if there is none. Whatever the bound, be it before the
    start, past the end of the log or the largest word itself, the search up to it finds the same position if
    that does not lie behind the bound, and nothing otherwise; cutting the number of lines to look at down to
    a word makes no difference. Both searches number the lines first, and then one passes over the lines
    before the start while the other takes the lines up to the bound before it does so. What either finds is
    the position of a line of the log. -/
theorem searches_agree (limit : Nat) (p : String → Bool) (log : List String) (h : log.length ≤ limit)
    (start last : Nat) :
    find p log start = firstNumber p (log.zipIdx.drop start)
      ∧ findWithin limit p log start last
        = firstNumber p ((log.zipIdx.take (min (last + 1) limit)).drop start)
      ∧ (∀ i, find p log start = some i ↔ IsLeast (acceptedFrom p log start) i)
      ∧ (find p log start = none ↔ acceptedFrom p log start = ∅)
      ∧ findUntil p log start last = (find p log start).filter (· ≤ last)
      ∧ findWithin limit p log start last = (find p log start).filter (· ≤ last)
      ∧ ∀ i, find p log start = some i ∨ findWithin limit p log start last = some i →
          i < log.length := by
  have huntil := findUntil_eq_filter p log start last
  refine ⟨find_eq_firstNumber p log start, findWithin_eq_firstNumber limit p log start last,
    fun i => find_eq_some_iff_isLeast, find_eq_none_iff_eq_empty, huntil, ?_, ?_⟩
  · rw [findWithin_eq h, huntil]
  · rintro i (hfind | hwithin)
    · exact (find_bounds hfind).2
    · exact (findWithin_bounds hwithin).2

/-- A bound before the start, a bound that is the largest word, and a start past the end. -/
theorem searches_agree_at_edges :
    let limit := 18446744073709551615
    let log := ["hit", "b", "hit"]
    let hit := Text.mentions "hit"
    log.length ≤ limit
      ∧ findWithin limit hit log 1 0 = none
      ∧ findWithin limit hit log 1 limit = some 2
      ∧ IsLeast (acceptedFrom hit log 1) 2
      ∧ acceptedFrom hit log 5 = ∅
      ∧ findWithin limit hit log 5 9 = none := by
  intro limit log hit
  have hlength : log.length ≤ limit := by decide
  obtain ⟨_, _, _, _, _, hbefore, _⟩ := searches_agree limit hit log hlength 1 0
  obtain ⟨_, _, hleast, _, _, hword, _⟩ := searches_agree limit hit log hlength 1 limit
  obtain ⟨_, _, _, hempty, _, hpast, _⟩ := searches_agree limit hit log hlength 5 9
  exact ⟨hlength, hbefore.trans (by decide), hword.trans (by decide), (hleast 2).1 (by decide),
    hempty.1 (by decide), hpast.trans (by decide)⟩

end BenchLog
