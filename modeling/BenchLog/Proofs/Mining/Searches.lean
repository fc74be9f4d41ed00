import Mathlib.Order.Nat
import BenchLog.Mining.Syscall
import BenchLog.Proofs.Section.Positions

/-!
# `BenchLog.Proofs.Mining.Searches` — the searches of a section of the syscall log

Such a section is searched line by line, and each search hands the lines behind its find to the next. Here
every search is told by positions in the log instead. The lines that a search starts from are those of a
section with the same upper bound, so that each law can be used on what the one before it left over.

The search for the echoed thread count starts over one line further down until two lines in a row do not
mention the measured call while a later one does. That it stops at the least such place is shown by taking
one line off the section at a time.

## Contents
- `need_of_first`, `need_of_none`: the next line with a word;
- `Section.FirstThree` and `Section.firstThree_iff`: three searches in a row;
- `Syscall.EchoAt`, `Syscall.FirstEcho`, the place of the echoed lines;
- `threadLines?_of_firstEcho`, `threadLines?_of_none`.
-/

namespace BenchLog

open BenchLog.Record

variable {p : String → Bool} {log : List String} {s : Section} {word line : String} {i j k c : Nat}

/-! ## The next line with a word -/

/-- Searching line by line finds the line at the first place with the word, and leaves those behind it. -/
theorem seek?_eq_bind (word : String) (lines : List String) :
    seek? word lines = (lines.findIdx? (Text.mentions word)).bind fun k =>
      lines[k]?.map fun line => (line, lines.drop (k + 1)) := by
  induction lines with
  | nil => rfl
  | cons line lines ih =>
      unfold seek?
      rw [List.findIdx?_cons]
      by_cases hword : Text.mentions word line = true
      · rw [if_pos hword, if_pos hword]
        rfl
      · rw [if_neg hword, if_neg hword, ih, Option.bind_map]
        rfl

theorem seek?_of_first (h : s.First (Text.mentions word) log i) (hline : log[i]? = some line) :
    seek? word (s.lines log) = some (line, (⟨i + 1, s.last⟩ : Section).lines log) := by
  have hfound := findUntil_eq_some_iff.2 h
  rw [findUntil_eq_findIdx?, Option.map_eq_some_iff] at hfound
  obtain ⟨k, hk, rfl⟩ := hfound
  have hlast : s.first + k ≤ s.last := Nat.add_comm k s.first ▸ h.covers.2
  have hinside : (s.lines log)[k]? = some line := by
    rw [s.getElem?_lines, if_pos hlast, Nat.add_comm, hline]
  rw [seek?_eq_bind, hk, Option.bind_some, hinside, Option.map_some, s.drop_lines, Nat.add_comm k s.first,
    Nat.add_assoc]

theorem seek?_of_none (h : ∀ i, ¬s.First (Text.mentions word) log i) :
    seek? word (s.lines log) = none := by
  have hnone : findUntil (Text.mentions word) log s.first s.last = none :=
    Option.eq_none_iff_forall_ne_some.2 fun i hi => h i (findUntil_eq_some_iff.1 hi)
  rw [findUntil_eq_findIdx?, Option.map_eq_none_iff] at hnone
  rw [seek?_eq_bind, hnone, Option.bind_none]

/-! ## Three searches in a row -/

namespace Section

/-- The first three positions between the bounds at which `p` accepts a line. -/
structure FirstThree (p : String → Bool) (log : List String) (s : Section) (i j k : Nat) : Prop where
  ordered : s.first ≤ i ∧ i < j ∧ j < k ∧ k ≤ s.last
  accepts : LineAt p log i ∧ LineAt p log j ∧ LineAt p log k
  least : ∀ n, s.first ≤ n → n < k → LineAt p log n → n = i ∨ n = j

/-- Three searches, each behind the find of the one before it, find the first three. -/
theorem firstThree_iff :
    s.FirstThree p log i j k
      ↔ s.First p log i ∧ (⟨i + 1, s.last⟩ : Section).First p log j
        ∧ (⟨j + 1, s.last⟩ : Section).First p log k := by
  constructor
  · rintro ⟨⟨hi, hij, hjk, hk⟩, ⟨hline1, hline2, hline3⟩, hleast⟩
    refine ⟨⟨⟨hi, by omega⟩, hline1, fun n hn hlt hline => ?_⟩,
      ⟨⟨hij, show j ≤ s.last by omega⟩, hline2, fun n hn hlt hline => ?_⟩,
      ⟨⟨hjk, hk⟩, hline3, fun n hn hlt hline => ?_⟩⟩
    · have := hleast n hn (by omega) hline
      omega
    · have hn : i + 1 ≤ n := hn
      have := hleast n (by omega) (by omega) hline
      omega
    · have hn : j + 1 ≤ n := hn
      have := hleast n (by omega) hlt hline
      omega
  · rintro ⟨h1, h2, h3⟩
    have hij : i + 1 ≤ j := h2.covers.1
    have hjk : j + 1 ≤ k := h3.covers.1
    refine ⟨⟨h1.covers.1, hij, hjk, h3.covers.2⟩, ⟨h1.accepts, h2.accepts, h3.accepts⟩, ?_⟩
    intro n hn hlt hline
    have hni : ¬n < i := fun hlt => h1.least n hn hlt hline
    have hnj (h : i + 1 ≤ n) : ¬n < j := fun hlt => h2.least n h hlt hline
    have hnk : ¬j + 1 ≤ n := fun h => h3.least n h hlt hline
    omega

end Section

namespace Syscall

theorem need_of_first (h : s.First (Text.mentions word) log i) (hline : log[i]? = some line) :
    need word (s.lines log) = .ok (line, (⟨i + 1, s.last⟩ : Section).lines log) := by
  unfold need
  rw [seek?_of_first h hline]

theorem need_of_none (h : ∀ i, ¬s.First (Text.mentions word) log i) :
    need word (s.lines log) = .error (.missingLine word) := by
  unfold need
  rw [seek?_of_none h]

/-- The next line with a word is the first between the bounds, or there is none. -/
theorem need_cases (word : String) (log : List String) (s : Section) :
    (∃ i line, s.First (Text.mentions word) log i
        ∧ need word (s.lines log) = .ok (line, (⟨i + 1, s.last⟩ : Section).lines log))
      ∨ need word (s.lines log) = .error (.missingLine word) := by
  by_cases hfirst : ∃ i, s.First (Text.mentions word) log i
  · obtain ⟨i, hfirst⟩ := hfirst
    obtain ⟨line, hline⟩ := hfirst.accepts.exists_line
    exact Or.inl ⟨i, line, hfirst, need_of_first hfirst hline⟩
  · exact Or.inr (need_of_none (not_exists.1 hfirst))

/-! ## The place of the echoed lines -/

/-- From the line at `c` on, two lines in a row do not mention the measured call while a later one does. -/
structure EchoAt (log : List String) (s : Section) (c : Nat) : Prop where
  starts : s.first ≤ c
  quiet : ¬LineAt (Text.mentions syscallWord) log c
  quiet_succ : ¬LineAt (Text.mentions syscallWord) log (c + 1)
  mentioned : ∃ i, (⟨c + 2, s.last⟩ : Section).Covers i ∧ LineAt (Text.mentions syscallWord) log i

/-- The least such place. -/
structure FirstEcho (log : List String) (s : Section) (c : Nat) : Prop where
  echo : EchoAt log s c
  least : ∀ c', EchoAt log s c' → c ≤ c'

theorem EchoAt.exists_firstEcho (h : EchoAt log s c) : ∃ c, FirstEcho log s c := by
  classical
  have hexists : ∃ c, EchoAt log s c := ⟨c, h⟩
  exact ⟨Nat.find hexists, Nat.find_spec hexists, fun c' hc' => Nat.find_min' hexists hc'⟩

/-- Both lines are in the log, since a later line is. -/
theorem EchoAt.exists_lines (h : EchoAt log s c) :
    ∃ first second, log[c]? = some first ∧ log[c + 1]? = some second := by
  obtain ⟨i, ⟨hfirst, _⟩, hline⟩ := h.mentioned
  obtain ⟨line, hi⟩ := hline.exists_line
  have hlength : i < log.length := (List.getElem?_eq_some_iff.1 hi).1
  have hfirst : c + 2 ≤ i := hfirst
  exact ⟨_, _, List.getElem?_eq_getElem (by omega), List.getElem?_eq_getElem (by omega)⟩

/-- Past its first line, a section has the places that it has but for this line. -/
theorem echoAt_succ_iff : EchoAt log ⟨s.first + 1, s.last⟩ c ↔ EchoAt log s c ∧ c ≠ s.first := by
  constructor
  · rintro ⟨hstarts, hquiet, hquiet', hmentioned⟩
    have hstarts : s.first + 1 ≤ c := hstarts
    exact ⟨⟨by omega, hquiet, hquiet', hmentioned⟩, by omega⟩
  · rintro ⟨⟨hstarts, hquiet, hquiet', hmentioned⟩, hne⟩
    exact ⟨show s.first + 1 ≤ c by omega, hquiet, hquiet', hmentioned⟩

theorem FirstEcho.succ (h : FirstEcho log s c) (hne : c ≠ s.first) :
    FirstEcho log ⟨s.first + 1, s.last⟩ c :=
  ⟨echoAt_succ_iff.2 ⟨h.echo, hne⟩, fun c' hc' => h.least c' (echoAt_succ_iff.1 hc').1⟩

/-! ### One turn of the search -/

theorem threadLines?_cons_cons (first second : String) (rest : List String) :
    threadLines? (first :: second :: rest)
      = if Text.mentions syscallWord first || Text.mentions syscallWord second then
          threadLines? (second :: rest)
        else if rest.any (Text.mentions syscallWord) then some (first, second, rest)
        else none := rfl

theorem threadLines?_of_quiet {lines : List String}
    (h : ¬lines.any (Text.mentions syscallWord) = true) : threadLines? lines = none := by
  match lines with
  | [] => rfl
  | [_] => rfl
  | first :: second :: rest =>
      rw [List.any_cons, List.any_cons, ← Bool.or_assoc, Bool.or_eq_true, not_or] at h
      rw [threadLines?_cons_cons, if_neg h.1, if_neg h.2]

/-- The search stops where the place is the first line. -/
theorem threadLines?_lines_here {first second : String} (h : EchoAt log s s.first)
    (hfirst : log[s.first]? = some first) (hsecond : log[s.first + 1]? = some second) :
    threadLines? (s.lines log)
      = some (first, second, (⟨s.first + 2, s.last⟩ : Section).lines log) := by
  obtain ⟨i, ⟨hi, hlast⟩, _⟩ := h.mentioned
  have hlast : s.first + 1 ≤ s.last := Nat.le_trans (Nat.le_of_succ_le hi) hlast
  have hquiet : ¬(Text.mentions syscallWord first || Text.mentions syscallWord second) = true := by
    rw [Bool.or_eq_true, ← lineAt_iff hfirst, ← lineAt_iff hsecond]
    exact not_or.2 ⟨h.quiet, h.quiet_succ⟩
  have hany : ((⟨s.first + 2, s.last⟩ : Section).lines log).any (Text.mentions syscallWord) = true :=
    Section.any_lines.2 h.mentioned
  rw [Section.lines_eq_cons_cons hlast hfirst hsecond, threadLines?_cons_cons, if_neg hquiet,
    if_pos hany]

/-- The search goes on past the first line where the place is not there. -/
theorem threadLines?_lines_succ (h : ¬EchoAt log s s.first) :
    threadLines? (s.lines log) = threadLines? ((⟨s.first + 1, s.last⟩ : Section).lines log) := by
  cases hlines : s.lines log with
  | nil =>
      rw [← s.drop_lines log 1, hlines]
      rfl
  | cons first lines =>
      obtain ⟨_, hfirst, hsucc⟩ := Section.lines_eq_cons_iff.1 hlines
      rw [hsucc]
      cases lines with
      | nil => rfl
      | cons second rest =>
          obtain ⟨_, hsecond, hrest⟩ := Section.lines_eq_cons_iff.1 hsucc
          rw [threadLines?_cons_cons]
          by_cases hmentions :
              (Text.mentions syscallWord first || Text.mentions syscallWord second) = true
          · rw [if_pos hmentions]
          · -- With no later mention there is nothing to find, here or further down.
            have hquiet : ¬LineAt (Text.mentions syscallWord) log s.first
                ∧ ¬LineAt (Text.mentions syscallWord) log (s.first + 1) := by
              rw [lineAt_iff hfirst, lineAt_iff hsecond, ← not_or, ← Bool.or_eq_true]
              exact hmentions
            have hany : ¬rest.any (Text.mentions syscallWord) = true := by
              rw [← hrest]
              exact fun hany => h ⟨Nat.le_refl _, hquiet.1, hquiet.2, Section.any_lines.1 hany⟩
            have hnone : ¬(second :: rest).any (Text.mentions syscallWord) = true := by
              rw [List.any_cons, Bool.or_eq_true, not_or, ← lineAt_iff hsecond]
              exact ⟨hquiet.2, hany⟩
            rw [if_neg hmentions, if_neg hany, threadLines?_of_quiet hnone]

/-! ### The whole search -/

/-- The search stops at the least place of two echoed lines. The induction is on the distance to it. -/
theorem threadLines?_of_firstEcho {first second : String} (h : FirstEcho log s c)
    (hfirst : log[c]? = some first) (hsecond : log[c + 1]? = some second) :
    threadLines? (s.lines log) = some (first, second, (⟨c + 2, s.last⟩ : Section).lines log) := by
  obtain ⟨d, hd⟩ : ∃ d, c = s.first + d := Nat.exists_eq_add_of_le h.echo.starts
  induction d generalizing s with
  | zero =>
      obtain rfl : c = s.first := hd
      exact threadLines?_lines_here h.echo hfirst hsecond
  | succ d ih =>
      have hne : c ≠ s.first := by omega
      have hnot : ¬EchoAt log s s.first := fun hecho =>
        hne (Nat.le_antisymm (h.least _ hecho) h.echo.starts)
      rw [threadLines?_lines_succ hnot]
      exact ih (h.succ hne) (show c = s.first + 1 + d by omega)

/-- The search finds nothing if there is no such place. The induction is on the number of lines. -/
theorem threadLines?_of_none (h : ∀ c, ¬EchoAt log s c) : threadLines? (s.lines log) = none := by
  generalize hlength : (s.lines log).length = n
  induction n generalizing s with
  | zero =>
      rw [List.eq_nil_of_length_eq_zero hlength]
      rfl
  | succ n ih =>
      rw [threadLines?_lines_succ (h s.first)]
      apply ih (fun c hc => h c (echoAt_succ_iff.1 hc).1)
      rw [← s.drop_lines log 1, List.length_drop, hlength, Nat.add_sub_cancel]

end Syscall

end BenchLog
