/-!
# `BenchLog.Section` — the sections of a log

A log is a list of lines, and some of its lines open a section: one run of the benchmark. A section
reaches from such a line up to and including the next one, or the last line of the log where no other
follows. Lines are named by their position, and what opens a section is a parameter.

## Contents
- `find`, `findUntil`, the first line of a kind from a position on;
- `Section`, its `span` and its `lines`;
- `locate`, the section that opens next; `sections`, all that are long enough.
-/

namespace BenchLog

/-- The position of the first line from `start` on that `p` accepts. -/
def find (p : String → Bool) (log : List String) (start : Nat) : Option Nat :=
  ((log.drop start).findIdx? p).map (· + start)

/-- The same, among the lines up to and including `last`. -/
def findUntil (p : String → Bool) (log : List String) (start last : Nat) : Option Nat :=
  (((log.take (last + 1)).drop start).findIdx? p).map (· + start)

/-- The positions of the first and the last line of a section. -/
structure Section where
  first : Nat
  last : Nat
deriving DecidableEq, Repr

namespace Section

/-- How many lines follow the first one. -/
def span (s : Section) : Nat := s.last - s.first

/-- The lines of a section, as far as the log has them. -/
def lines (s : Section) (log : List String) : List String :=
  (log.drop s.first).take (s.last + 1 - s.first)

end Section

/-- The section that opens first from `start` on. -/
def locate (p : String → Bool) (log : List String) (start : Nat) : Option Section :=
  (find p log start).map fun first => ⟨first, (find p log (first + 1)).getD (log.length - 1)⟩

/-! ## All sections of a log -/

theorem find_bounds {p : String → Bool} {log : List String} {start i : Nat}
    (h : find p log start = some i) : start ≤ i ∧ i < log.length := by
  obtain ⟨k, hk, rfl⟩ := Option.map_eq_some_iff.1 h
  have bound := (List.findIdx?_eq_some_iff_findIdx_eq.1 hk).1
  rw [List.length_drop] at bound
  omega

theorem locate_bounds {p : String → Bool} {log : List String} {start : Nat} {s : Section}
    (h : locate p log start = some s) : start ≤ s.first ∧ s.first < log.length := by
  obtain ⟨i, hi, rfl⟩ := Option.map_eq_some_iff.1 h
  exact find_bounds hi

/-- The sections that open from `start` on and whose span exceeds `minSpan`. A section is looked for
where the one before it ended, and always past the line that opened it. -/
def sectionsFrom (p : String → Bool) (minSpan : Nat) (log : List String) (start : Nat) :
    List Section :=
  match h : locate p log start with
  | none => []
  | some s =>
    have := locate_bounds h
    let rest := sectionsFrom p minSpan log (max s.last (s.first + 1))
    if minSpan < s.span then s :: rest else rest
termination_by log.length - start

/-- The sections of a log whose span exceeds `minSpan`. -/
def sections (p : String → Bool) (minSpan : Nat) (log : List String) : List Section :=
  sectionsFrom p minSpan log 0

end BenchLog
