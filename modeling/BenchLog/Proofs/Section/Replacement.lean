import BenchLog.Proofs.Section.Openings

/-!
# `BenchLog.Proofs.Section.Replacement` — sections with other lines at their bounds

Only which lines open a section decides where sections are. A log in which such a line is replaced by another
one therefore has the same sections, and what lies between the bounds of a section is not touched: its lines
are the first one and others, or others and the last one, and replacing the first or the last leaves the
others alone.

## Contents
- `openings_set`, `sections_set`: one line replaced;
- `redelimit`, a log with the bounds of a section replaced, and `sections_redelimit`;
- `not_opens_of_mem_sections`: the lines between the bounds open nothing;
- `Section.lines_eq_cons`, `Section.lines_eq_concat`: the first line and the last one split off.
-/

namespace BenchLog

variable {p : String → Bool} {log : List String} {line : String} {s : Section} {minSpan : Nat}

/-! ## One line replaced -/

/-- What opened a section still does, and nothing else does, when an opening line is replaced by
    another one. -/
theorem openings_set {i : Nat} (hi : i ∈ openings p log) (hline : p line = true) :
    openings p (log.set i line) = openings p log := by
  unfold openings
  rw [List.length_set]
  refine List.filter_congr fun j hj => ?_
  by_cases hij : i = j
  · subst hij
    obtain ⟨old, hold, hp⟩ := mem_openings.1 hi
    rw [List.getElem?_set_self (List.mem_range.1 hj), hold, Option.any_some, Option.any_some, hline, hp]
  · rw [List.getElem?_set_ne hij]

theorem sections_set {i : Nat} (hi : i ∈ openings p log) (hline : p line = true) (minSpan : Nat) :
    sections p minSpan (log.set i line) = sections p minSpan log := by
  rw [sections_eq_filter, sections_eq_filter, openings_set hi hline, List.length_set]

/-! ## Both bounds replaced -/

/-- A log in which the line that opens a section is replaced, and the line that closes it too, if that one
    opens the next section. -/
def redelimit (p : String → Bool) (opening closing : String) (s : Section) (log : List String) :
    List String :=
  if log[s.last]?.any p then (log.set s.first opening).set s.last closing
  else log.set s.first opening

theorem mem_openings_iff_any {i : Nat} : i ∈ openings p log ↔ log[i]?.any p = true := by
  rw [mem_openings, Option.any_eq_true]

/-- The bounds of a section may be replaced by any lines that open one. -/
theorem sections_redelimit (hs : s ∈ sections p minSpan log) {opening closing : String}
    (hopening : p opening = true) (hclosing : p closing = true) :
    sections p minSpan (redelimit p opening closing s log) = sections p minSpan log := by
  have hfirst : s.first ∈ openings p log := first_mem_of_mem_bounds (bounds_of_mem_sections hs).1
  unfold redelimit
  split
  · next hlast =>
      -- With another opening line the closing one is still where it was.
      have hopens : s.last ∈ openings p (log.set s.first opening) := by
        rw [openings_set hfirst hopening]
        exact mem_openings_iff_any.2 hlast
      rw [sections_set hopens hclosing, sections_set hfirst hopening]
  · exact sections_set hfirst hopening minSpan

/-! ## The lines of a section -/

/-- Between its bounds a section has no opening. -/
theorem not_opens_of_mem_sections (hs : s ∈ sections p minSpan log) {i : Nat} (hfirst : s.first < i)
    (hlast : i < s.last) (hline : log[i]? = some line) : p line = false := by
  cases hp : p line with
  | false => rfl
  | true =>
      have hmem : i ∈ openings p log := mem_openings.2 ⟨line, hline, hp⟩
      have hle := last_le_of_mem_bounds (openings_pairwise p log) (bounds_of_mem_sections hs).1 hmem hfirst
      omega

namespace Section

/-- The lines of a section behind its first one. -/
def later (s : Section) (log : List String) : List String :=
  (log.drop (s.first + 1)).take (s.last - s.first)

/-- The lines of a section before its last one. -/
def earlier (s : Section) (log : List String) : List String :=
  (log.drop s.first).take (s.last - s.first)

theorem lines_eq_cons (hbounds : s.first ≤ s.last) (hline : log[s.first]? = some line) :
    s.lines log = line :: s.later log := by
  obtain ⟨hlt, rfl⟩ := List.getElem?_eq_some_iff.1 hline
  have hcount : s.last + 1 - s.first = (s.last - s.first) + 1 := by omega
  rw [lines, later, List.drop_eq_getElem_cons hlt, hcount, List.take_succ_cons]

theorem lines_eq_concat (hbounds : s.first ≤ s.last) (hline : log[s.last]? = some line) :
    s.lines log = s.earlier log ++ [line] := by
  have hcount : s.last + 1 - s.first = (s.last - s.first) + 1 := by omega
  have hfinal : (log.drop s.first)[s.last - s.first]? = some line := by
    rw [List.getElem?_drop, Nat.add_sub_cancel' hbounds, hline]
  rw [lines, earlier, hcount, List.take_add_one, hfinal]
  rfl

/-- Where more than one line comes after the first, the next one lies between the bounds. -/
theorem inside_of_later_eq_cons {second : String} {more : List String}
    (hlater : s.later log = second :: more) (hmore : more ≠ []) :
    s.first + 1 < s.last ∧ log[s.first + 1]? = some second := by
  have htwo : 1 < (s.later log).length := by
    rw [hlater, List.length_cons]
    have := List.length_pos_iff.2 hmore
    omega
  have hcount : 1 < s.last - s.first := by
    rw [later, List.length_take] at htwo
    omega
  have hnext : (s.later log)[0]? = some second := by
    rw [hlater]
    rfl
  rw [later, List.getElem?_take_of_lt (by omega), List.getElem?_drop] at hnext
  exact ⟨by omega, hnext⟩

/-- The first line is none of the later ones. -/
theorem later_set (s : Section) (log : List String) (line : String) :
    s.later (log.set s.first line) = s.later log := by
  rw [later, later, List.drop_set_of_lt (Nat.lt_succ_self s.first)]

/-- The last line is none of the earlier ones. -/
theorem earlier_set (hbounds : s.first ≤ s.last) (log : List String) (line : String) :
    s.earlier (log.set s.last line) = s.earlier log := by
  rw [earlier, earlier, List.drop_set, if_neg (Nat.not_lt.2 hbounds),
    List.take_set_of_le (Nat.le_refl _)]

end Section

end BenchLog
