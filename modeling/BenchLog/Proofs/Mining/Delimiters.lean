import BenchLog.Proofs.Mining.Entries
import BenchLog.Proofs.Mining.Unread
import BenchLog.Proofs.Section.Replacement

/-!
# `BenchLog.Proofs.Mining.Delimiters` — what the lines at the bounds of a section do

A section is searched from its opening up to and including its closing line. As long as these two lines do
not mention the word by which the lines of a section are told from others, they only delimit: other lines in
their place give the same outcome. The number of instances is read from the opening of a section of the
syscall log, so that has to stay.

There is one trace of the opening line in an outcome. The thread count is looked for from the opening on; if
a mention of the measured call follows two lines further down, the opening and the line after it are taken
for the two equal lines that should echo it. They are not equal, and the section is skipped with a reason
that quotes the opening.

## Contents
- `Variant.mine?_set_first`, `Variant.mine?_set_last`: one bound replaced;
- `Variant.Interchangeable`, `Variant.closesUnread`, and `Variant.mine?_redelimit`: both.
-/

namespace BenchLog

open BenchLog.Record

variable {tag opening closing : String} {log : List String} {s : Section}

namespace Variant

variable {v : Variant}

/-! ## One bound replaced -/

/-- Whether a line can take the place of another one that opens a section. Neither may be read in a section
    of the counter log. In one of the syscall log they give the same number of instances, and both or none
    of them are read. -/
def Interchangeable : Variant → String → String → Prop
  | .counter, tag, opening => counter.reads tag = false ∧ counter.reads opening = false
  | .syscall, tag, opening =>
    SectionTag.instances opening = SectionTag.instances tag ∧ syscall.reads opening = syscall.reads tag

/-- Two outcomes that skip a section because its opening is no thread count, and differ in which opening they
    quote. -/
def Requoted (tag opening : String) (before after : Option Outcome) : Prop :=
  ∃ second, before = some (.skipped (.threadMismatch tag second))
    ∧ after = some (.skipped (.threadMismatch opening second))

/-- Whether the line that closes a section stays, or neither it nor the one in its place is read. -/
def closesUnread (v : Variant) (closing : String) (s : Section) (log : List String) : Bool :=
  log[s.last]?.all fun last => !v.opens last || (!v.reads last && !v.reads closing)

/-- Another opening line. It is the first line of the section and no other one, since the next line, where it
    is not the last, opens no section. -/
theorem mine?_set_first (hs : s ∈ v.sections log) (htag : log[s.first]? = some tag)
    (hopens : v.opens tag = true) (hopening : v.opens opening = true)
    (halike : v.Interchangeable tag opening) (set : String) :
    v.mine? set (log.set s.first opening) s = v.mine? set log s
      ∨ v = .syscall ∧ v.reads tag = false
        ∧ Requoted tag opening (v.mine? set log s) (v.mine? set (log.set s.first opening) s) := by
  obtain ⟨_, hlt, hend⟩ := bounds_of_mem_sections hs
  have hnew : (log.set s.first opening)[s.first]? = some opening :=
    List.getElem?_set_self (by omega)
  have hlines : s.lines log = tag :: s.later log := s.lines_eq_cons (Nat.le_of_lt hlt) htag
  have hlines' : s.lines (log.set s.first opening) = opening :: s.later log := by
    rw [s.lines_eq_cons (Nat.le_of_lt hlt) hnew, s.later_set]
  cases v with
  | counter =>
      refine Or.inl ?_
      rw [mine?, mine?, Counter.mine, Counter.mine, hlines, hlines', Counter.collect_cons halike.1,
        Counter.collect_cons halike.2]
  | syscall =>
      have hnext : ∀ second more, s.later log = second :: more → more ≠ [] →
          tag ≠ second ∧ opening ≠ second := by
        intro second more hlater hmore
        obtain ⟨hinside, hsecond⟩ := Section.inside_of_later_eq_cons hlater hmore
        -- The next line lies between the bounds, so it opens no section, as the other two do.
        have hcloses : syscall.opens second = false :=
          not_opens_of_mem_sections hs (Nat.lt_succ_self _) hinside hsecond
        constructor
        · rintro rfl
          rw [hcloses] at hopens
          exact Bool.noConfusion hopens
        · rintro rfl
          rw [hcloses] at hopening
          exact Bool.noConfusion hopening
      rw [mine?, mine?, Syscall.mine?, Syscall.mine?, htag, hnew, hlines, hlines', Option.map_some,
        Option.map_some]
      rcases Syscall.mineFrom_retag halike.1 halike.2 hnext set with
        hsame | ⟨hunread, second, hbefore, hafter⟩
      · exact Or.inl (congrArg some hsame)
      · exact Or.inr ⟨rfl, hunread, second, congrArg some hbefore, congrArg some hafter⟩

/-- Another closing line. -/
theorem mine?_set_last {last : String} (hs : s ∈ v.sections log) (hlast : log[s.last]? = some last)
    (hold : v.reads last = false) (hnew : v.reads closing = false) (set : String) :
    v.mine? set (log.set s.last closing) s = v.mine? set log s := by
  obtain ⟨_, hlt, hend⟩ := bounds_of_mem_sections hs
  have hline : (log.set s.last closing)[s.last]? = some closing := List.getElem?_set_self hend
  have hlines : s.lines log = s.earlier log ++ [last] := s.lines_eq_concat (Nat.le_of_lt hlt) hlast
  have hlines' : s.lines (log.set s.last closing) = s.earlier log ++ [closing] := by
    rw [s.lines_eq_concat (Nat.le_of_lt hlt) hline, s.earlier_set (Nat.le_of_lt hlt)]
  cases v with
  | counter =>
      rw [mine?, mine?, Counter.mine, Counter.mine, hlines, hlines', Counter.collect_append hold,
        Counter.collect_append hnew]
  | syscall =>
      have hfirst : (log.set s.last closing)[s.first]? = log[s.first]? :=
        List.getElem?_set_ne (Nat.ne_of_gt hlt)
      rw [mine?, mine?, Syscall.mine?, Syscall.mine?, hlines, hlines', hfirst]
      refine congrArg (Option.map · _) (funext fun tag => ?_)
      rw [Syscall.mineFrom_append hold, Syscall.mineFrom_append hnew]

/-! ## Both bounds replaced -/

/-- **Lines that delimit only delimit, unless they are read.** The lines that open and close a section may be
    replaced by others that open one. All sections keep their bounds. If the lines that come and those that
    go are not read in the section, it yields what it did, apart from a quotation of the opening line in the
    reason for which a section of the syscall log is skipped. -/
theorem mine?_redelimit (hs : s ∈ v.sections log) (htag : log[s.first]? = some tag)
    (hopening : v.opens opening = true) (hclosing : v.opens closing = true) :
    v.sections (redelimit v.opens opening closing s log) = v.sections log
      ∧ (v.Interchangeable tag opening → v.closesUnread closing s log = true → ∀ set,
          v.mine? set (redelimit v.opens opening closing s log) s = v.mine? set log s
            ∨ v = .syscall ∧ v.reads tag = false
              ∧ Requoted tag opening (v.mine? set log s)
                  (v.mine? set (redelimit v.opens opening closing s log) s)) := by
  refine ⟨sections_redelimit hs hopening hclosing, fun halike hunread set => ?_⟩
  obtain ⟨hbounds, hlt, hend⟩ := bounds_of_mem_sections hs
  have hfirst : s.first ∈ openings v.opens log := first_mem_of_mem_bounds hbounds
  have hopens : v.opens tag = true := by
    rw [mem_openings_iff_any, htag] at hfirst
    exact hfirst
  have hset := mine?_set_first hs htag hopens hopening halike set
  unfold redelimit
  split
  · next hcloses =>
      obtain ⟨last, hlast, hp⟩ := (Option.any_eq_true _ _).1 hcloses
      have hread : v.reads last = false ∧ v.reads closing = false := by
        simpa [closesUnread, hlast, hp] using hunread
      -- With the opening line replaced this is a section of the log with the same last line.
      have hs' : s ∈ v.sections (log.set s.first opening) := by
        rw [sections, sections_set hfirst hopening]
        exact hs
      have hlast' : (log.set s.first opening)[s.last]? = some last := by
        rw [List.getElem?_set_ne (Nat.ne_of_lt hlt), hlast]
      rw [mine?_set_last hs' hlast' hread.1 hread.2 set]
      exact hset
  · exact hset

/-- A section of the counter log under another load line, closed by yet another one. -/
theorem mine?_redelimit_insmod :
    let log :=
      ["insmod krp_fl.ko",
        "[1.0] fl : threads:8 preempt:0 max: 384 cycle: 0 a:0 b:1 delta: 10 hits: 1 missed: 0",
        "", "", "", "", "insmod krp_fl.ko"]
    let other :=
      ["[9.0] insmod",
        "[1.0] fl : threads:8 preempt:0 max: 384 cycle: 0 a:0 b:1 delta: 10 hits: 1 missed: 0",
        "", "", "", "", "insmod"]
    ⟨0, 6⟩ ∈ counter.sections log
      ∧ redelimit counter.opens "[9.0] insmod" "insmod" ⟨0, 6⟩ log = other
      ∧ counter.sections other = counter.sections log
      ∧ counter.mine? "arm64" other ⟨0, 6⟩ = counter.mine? "arm64" log ⟨0, 6⟩ := by
  intro log other
  have hs : ⟨0, 6⟩ ∈ counter.sections log := by
    rw [sections, sections_eq_filter]
    decide
  have hother : redelimit counter.opens "[9.0] insmod" "insmod" ⟨0, 6⟩ log = other := by decide
  have htag : log[(⟨0, 6⟩ : Section).first]? = some "insmod krp_fl.ko" := rfl
  obtain ⟨hsections, hyield⟩ := mine?_redelimit hs htag
    (by decide : counter.opens "[9.0] insmod" = true) (by decide : counter.opens "insmod" = true)
  rw [hother] at hsections hyield
  rcases hyield ⟨by decide, by decide⟩ (by decide) "arm64" with hsame | ⟨hsyscall, _⟩
  · exact ⟨hs, hother, hsections, hsame⟩
  · cases hsyscall

/-- Neither condition can go. A closing line that is a record is the fifth one of the section that it closes,
    which has only four when the line is replaced; and a tag that mentions the measured call is passed over,
    whereas one that does not is taken for a thread count. -/
theorem delimiters_are_read :
    let log :=
      ["insmod",
        "[1.0] fl : threads:8 preempt:0 max: 384 cycle: 0 a:0 b:1 delta: 10 hits: 1 missed: 0",
        "[2.0] fl : threads:8 preempt:0 max: 384 cycle: 0 a:0 b:1 delta: 10 hits: 2 missed: 0",
        "[3.0] fl : threads:8 preempt:0 max: 384 cycle: 0 a:0 b:1 delta: 10 hits: 3 missed: 0",
        "[4.0] fl : threads:8 preempt:0 max: 384 cycle: 0 a:0 b:1 delta: 10 hits: 4 missed: 0",
        "",
        "[5.0] insmod : threads:8 preempt:0 max: 384 cycle: 0 a:0 b:1 delta: 10 hits: 5 missed: 0"]
    let tagged := ["krp_insts=96 flock", "8", "8", "flock"]
    (⟨0, 6⟩ ∈ counter.sections log
        ∧ counter.opens "insmod" = true
        ∧ counter.mine? "arm64" log ⟨0, 6⟩ = some (.recorded ⟨"fl:384/0-1"⟩ 4 4000000000 0 false)
        ∧ counter.mine? "arm64" (redelimit counter.opens "insmod" "insmod" ⟨0, 6⟩ log) ⟨0, 6⟩
          = some (.degenerate ⟨"fl:384/0-1"⟩ 4 (.insufficient 5 4)))
      ∧ ⟨0, 3⟩ ∈ syscall.sections tagged
        ∧ syscall.opens "krp_insts=96" = true
        ∧ SectionTag.instances "krp_insts=96" = SectionTag.instances "krp_insts=96 flock"
        ∧ syscall.mine? "fl" tagged ⟨0, 3⟩ = some (.skipped (.missingLine "syscalls:sys_enter_flock"))
        ∧ syscall.mine? "fl" (redelimit syscall.opens "krp_insts=96" "" ⟨0, 3⟩ tagged) ⟨0, 3⟩
          = some (.skipped (.threadMismatch "krp_insts=96" "8")) := by
  refine ⟨⟨?_, by decide, by decide, by decide⟩, ?_, by decide, rfl, by decide, by decide⟩
  all_goals rw [sections, sections_eq_filter]
  all_goals decide

end Variant

end BenchLog
