import BenchLog.Proofs.Section.Openings

/-!
# `BenchLog.Proofs.Section.Concatenation` — the sections of two logs in a row

A line that opens a section closes the one before it. The sections of a log that goes on with such a line
are therefore those up to and including that line, followed by those from that line on, further down by the
length of what stands before it.

## Contents
- `Section.lines_append_left`, `Section.lines_shift`, the lines of a section in a longer log;
- `sections_append_closing`, `sections_append`; `sections_append_of_quiet`, lines in front of all sections.
-/

namespace BenchLog

/-! ## The lines of a section in a longer log -/

namespace Section

/-- What comes after a section does not touch its lines. -/
theorem lines_append_left {s : Section} {log : List String} (h : s.last < log.length)
    (more : List String) : s.lines (log ++ more) = s.lines log := by
  unfold lines
  by_cases hfirst : s.first ≤ log.length
  · rw [List.drop_append_of_le_length hfirst,
      List.take_append_of_le_length (by rw [List.length_drop]; omega)]
  · have hnone : s.last + 1 - s.first = 0 := by omega
    rw [hnone, List.take_zero, List.take_zero]

/-- What comes before a section only moves it. -/
theorem lines_shift (s : Section) (before log : List String) :
    (s.shift before.length).lines (before ++ log) = s.lines log := by
  have hcount : before.length + s.last + 1 - (before.length + s.first) = s.last + 1 - s.first := by
    omega
  rw [lines, lines, shift, List.drop_append, hcount, List.drop_eq_nil_of_le (Nat.le_add_right _ _),
    List.nil_append, Nat.add_sub_cancel_left]

end Section

theorem getElem?_shift (s : Section) (before log : List String) :
    (before ++ log)[(s.shift before.length).first]? = log[s.first]? := by
  rw [Section.shift, List.getElem?_append_right (Nat.le_add_right _ _), Nat.add_sub_cancel_left]

/-! ## The sections of two logs in a row -/

variable {p : String → Bool} {line : String}

theorem openings_cons (h : p line = true) (rest : List String) :
    openings p (line :: rest) = 0 :: (openings p rest).map (1 + ·) := by
  have hone : openings p [line] = [0] := by simp [openings, h, List.range_succ]
  have := openings_append p [line] rest
  rwa [hone] at this

/-- A line that opens a section bounds the last one of a log, and is too short to be one itself. -/
theorem sections_append_closing (h : p line = true) (minSpan : Nat) (log : List String) :
    sections p minSpan (log ++ [line])
      = (bounds log.length (openings p log)).filter (minSpan < ·.span) := by
  have hempty : ([⟨log.length, log.length⟩] : List Section).filter (minSpan < ·.span) = [] := by
    simp [Section.span]
  rw [sections_eq_filter, openings_append, openings_cons h, List.length_append, List.length_singleton,
    List.map_cons, Nat.add_zero, Nat.add_sub_cancel, bounds_append, List.filter_append]
  exact (congrArg _ hempty).trans (List.append_nil _)

/-- Where a line opens a section, the sections of a log fall into two parts. -/
theorem sections_append (h : p line = true) (minSpan : Nat) (log rest : List String) :
    sections p minSpan (log ++ line :: rest)
      = sections p minSpan (log ++ [line])
        ++ (sections p minSpan (line :: rest)).map (Section.shift log.length) := by
  have hfinal : (log ++ line :: rest).length - 1 = log.length + ((line :: rest).length - 1) := by
    simp only [List.length_append, List.length_cons]
    omega
  have hbounds : ∀ final,
      bounds (log.length + final) (openings p log ++ (openings p (line :: rest)).map (log.length + ·))
        = bounds log.length (openings p log)
          ++ (bounds final (openings p (line :: rest))).map (Section.shift log.length) := by
    intro final
    rw [← bounds_map_add, openings_cons h, List.map_cons]
    exact bounds_append _ _ _ _
  have hspan : (fun s : Section => decide (minSpan < s.span)) ∘ Section.shift log.length
      = fun s => decide (minSpan < s.span) := by
    funext s
    rw [Function.comp_apply, Section.span_shift]
  rw [sections_append_closing h, sections_eq_filter, sections_eq_filter, openings_append, hfinal,
    hbounds, List.filter_append, List.filter_map, hspan]

/-- Lines in front that open no section only move those of a log further down. -/
theorem sections_append_of_quiet {before : List String} (h : ∀ line ∈ before, p line = false) (minSpan : Nat)
    (log : List String) :
    sections p minSpan (before ++ log) = (sections p minSpan log).map (Section.shift before.length) := by
  have hquiet : openings p before = [] := by
    rw [List.eq_nil_iff_forall_not_mem]
    intro i hi
    obtain ⟨line, hline, hp⟩ := mem_openings.1 hi
    exact Bool.false_ne_true ((h line (List.mem_of_getElem? hline)).symm.trans hp)
  have hbounds : bounds ((before ++ log).length - 1) ((openings p log).map (before.length + ·))
      = (bounds (log.length - 1) (openings p log)).map (Section.shift before.length) := by
    cases log with
    | nil => rfl
    | cons line rest =>
        have hfinal : (before ++ line :: rest).length - 1 = before.length + ((line :: rest).length - 1) := by
          simp only [List.length_append, List.length_cons]
          omega
        rw [hfinal, bounds_map_add]
  have hspan : (fun s : Section => decide (minSpan < s.span)) ∘ Section.shift before.length
      = fun s => decide (minSpan < s.span) := by
    funext s
    rw [Function.comp_apply, Section.span_shift]
  rw [sections_eq_filter, sections_eq_filter, openings_append, hquiet, List.nil_append, hbounds,
    List.filter_map, hspan]

end BenchLog
