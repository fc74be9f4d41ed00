import BenchLog.Proofs.Mining.Entries
import BenchLog.Proofs.Mining.Unread
import BenchLog.Proofs.Section.Concatenation

/-!
# `BenchLog.Proofs.Mining.Concatenation` — what sections of two logs in a row yield

A log that is followed by another one yields what it yields with the first line of the other one behind it,
and then what the other one yields. That first line is the last line of a section that would otherwise end
with the log. It makes the section longer by one, and it is searched like any other line of the section; no
other section has anything to do with it.

## Contents
- `Variant.mine?_append_left`, `Variant.mine?_shift`, a section in a longer log;
- `Variant.results_append`, a log cut at a line that opens a section;
- `Variant.mine?_closing`, a section with one more line;
- `Variant.unclosed?`, `Variant.closedBy?`, what the section yields that a log ends with;
- `Variant.endsShort`, `Variant.results_closing`, a log with and without the line that closes it;
- `Variant.results_concat`, two logs in a row.
-/

namespace BenchLog

open BenchLog.Record

variable {line : String}

/-! ## A section in a longer log -/

namespace Variant

theorem mine?_append_left (v : Variant) (set : String) {s : Section} {log : List String}
    (hfirst : s.first < log.length) (hlast : s.last < log.length) (more : List String) :
    v.mine? set (log ++ more) s = v.mine? set log s := by
  have hlines := Section.lines_append_left hlast more
  cases v with
  | counter => rw [mine?, mine?, Counter.mine, Counter.mine, hlines]
  | syscall => rw [mine?, mine?, Syscall.mine?, Syscall.mine?, hlines, List.getElem?_append_left hfirst]

theorem mine?_shift (v : Variant) (set : String) (s : Section) (before log : List String) :
    v.mine? set (before ++ log) (s.shift before.length) = v.mine? set log s := by
  have hlines := Section.lines_shift s before log
  cases v with
  | counter => rw [mine?, mine?, Counter.mine, Counter.mine, hlines]
  | syscall => rw [mine?, mine?, Syscall.mine?, Syscall.mine?, hlines, getElem?_shift]

/-- Where a line opens a section, a log yields what it yields up to and including that line, and then
    what it yields from that line on. -/
theorem results_append {v : Variant} (h : v.opens line = true) (set : String)
    (log rest : List String) :
    v.results set (log ++ line :: rest)
      = v.results set (log ++ [line]) ++ v.results set (line :: rest) := by
  have hleft : ∀ s ∈ v.sections (log ++ [line]),
      v.mine? set (log ++ line :: rest) s = v.mine? set (log ++ [line]) s := by
    intro s hs
    obtain ⟨_, hlt, hlast⟩ := bounds_of_mem_sections hs
    rw [show log ++ line :: rest = (log ++ [line]) ++ rest by simp]
    exact v.mine?_append_left set (by omega) hlast rest
  have hright : ∀ s ∈ v.sections (line :: rest),
      (v.mine? set (log ++ line :: rest) ∘ Section.shift log.length) s = v.mine? set (line :: rest) s :=
    fun s _ => v.mine?_shift set s log (line :: rest)
  have hsections : v.sections (log ++ line :: rest)
      = v.sections (log ++ [line]) ++ (v.sections (line :: rest)).map (Section.shift log.length) :=
    sections_append h v.minSpan log rest
  rw [results_eq_filterMap, results_eq_filterMap, results_eq_filterMap, hsections,
    List.filterMap_append, List.filterMap_map, List.filterMap_congr hleft, List.filterMap_congr hright]

end Variant

/-! ## A section with one more line -/

namespace Variant

/-- The section that a log ends with yields the same when it is closed by one more line that is not
    read. -/
theorem mine?_closing {v : Variant} (h : v.reads line = false) (set : String) {log : List String}
    {d : Nat} (hd : d < log.length) :
    v.mine? set (log ++ [line]) ⟨d, log.length⟩ = v.mine? set log ⟨d, log.length - 1⟩ := by
  have hopen : Section.lines ⟨d, log.length - 1⟩ log = log.drop d := by
    rw [Section.lines, List.take_of_length_le (by rw [List.length_drop]; dsimp only; omega)]
  have hclosed : Section.lines ⟨d, log.length⟩ (log ++ [line]) = log.drop d ++ [line] := by
    rw [Section.lines, List.drop_append_of_le_length (Nat.le_of_lt hd), List.take_of_length_le]
    rw [List.length_append, List.length_drop, List.length_singleton]
    dsimp only
    omega
  cases v with
  | counter =>
      rw [mine?, mine?, Counter.mine, Counter.mine, hopen, hclosed, Counter.collect_append h]
  | syscall =>
      rw [mine?, mine?, Syscall.mine?, Syscall.mine?, hopen, hclosed, List.getElem?_append_left hd]
      exact congrArg (Option.map · _) (funext fun tag => Syscall.mineFrom_append h set tag _)

/-! ## The section that a log ends with -/

/-- What the lines between two positions yield as a section, unless they are too few. -/
def yield? (v : Variant) (set : String) (log : List String) (s : Section) : Option Outcome :=
  if v.minSpan < s.span then v.mine? set log s else none

theorem filterMap_mine?_filter (v : Variant) (set : String) (log : List String) (ss : List Section) :
    (ss.filter (v.minSpan < ·.span)).filterMap (v.mine? set log) = ss.filterMap (v.yield? set log) := by
  rw [List.filterMap_filter]
  refine List.filterMap_congr fun s _ => ?_
  simp only [yield?, decide_eq_true_eq]

theorem results_eq_filterMap_yield? (v : Variant) (set : String) (log : List String) :
    v.results set log
      = (bounds (log.length - 1) (openings v.opens log)).filterMap (v.yield? set log) := by
  rw [results_eq_filterMap, sections, sections_eq_filter, filterMap_mine?_filter]

theorem results_append_closing {v : Variant} (h : v.opens line = true) (set : String)
    (log : List String) :
    v.results set (log ++ [line])
      = (bounds log.length (openings v.opens log)).filterMap (v.yield? set (log ++ [line])) := by
  rw [results_eq_filterMap, sections, sections_append_closing h, filterMap_mine?_filter]

theorem filterMap_singleton_yield? (v : Variant) (set : String) (log : List String) (s : Section) :
    [s].filterMap (v.yield? set log) = (v.yield? set log s).toList := by
  cases h : v.yield? set log s <;> simp [h]

/-- The section that a log ends with is mined or not whether it is closed or not, unless one line decides
    that, and yields the same if the closing line is not read. -/
theorem yield?_closing {v : Variant} (set : String) {log : List String} {d : Nat}
    (hd : d < log.length) (hspan : log.length - 1 - d ≠ v.minSpan) :
    (v.yield? set log ⟨d, log.length - 1⟩).isSome
        = (v.yield? set (log ++ [line]) ⟨d, log.length⟩).isSome
      ∧ (v.reads line = false →
          v.yield? set log ⟨d, log.length - 1⟩ = v.yield? set (log ++ [line]) ⟨d, log.length⟩) := by
  have hopen : Section.span ⟨d, log.length - 1⟩ = log.length - 1 - d := rfl
  have hclosed : Section.span ⟨d, log.length⟩ = log.length - d := rfl
  rw [yield?, yield?, hopen, hclosed]
  by_cases hmined : v.minSpan < log.length - 1 - d
  · have hd' : d < (log ++ [line]).length := by
      rw [List.length_append]
      exact Nat.lt_add_right _ hd
    obtain ⟨o, ho⟩ : ∃ o, v.mine? set log ⟨d, log.length - 1⟩ = some o := v.exists_mine? set hd
    obtain ⟨o', ho'⟩ : ∃ o, v.mine? set (log ++ [line]) ⟨d, log.length⟩ = some o :=
      v.exists_mine? set hd'
    rw [if_pos hmined, if_pos (by omega)]
    refine ⟨by rw [ho, ho']; rfl, fun hread => ?_⟩
    rw [mine?_closing hread set hd]
  · rw [if_neg hmined, if_neg (by omega)]
    exact ⟨rfl, fun _ => rfl⟩

/-- Whether the section that a log ends with spans just as many lines as a section must exceed. -/
def endsShort (v : Variant) (log : List String) : Bool :=
  (openings v.opens log).getLast?.any fun d => log.length - 1 - d = v.minSpan

/-- What the section yields that a log ends with. It opens at the last opening, and its last line is the last
    one of the log. -/
def unclosed? (v : Variant) (set : String) (log : List String) : Option Outcome :=
  (openings v.opens log).getLast?.bind fun d => v.yield? set log ⟨d, log.length - 1⟩

/-- What that section yields where one more line closes it. -/
def closedBy? (v : Variant) (set : String) (log : List String) (line : String) : Option Outcome :=
  (openings v.opens log).getLast?.bind fun d => v.yield? set (log ++ [line]) ⟨d, log.length⟩

/-- A line that opens a section can only matter to the section that a log ends with: to whether it is
    mined if that section is just too short, and to what it yields if the line is read. -/
theorem results_closing {v : Variant} (h : v.opens line = true) (set : String) (log : List String) :
    ∃ closed : List Outcome,
      v.results set log = closed ++ (v.unclosed? set log).toList
        ∧ v.results set (log ++ [line]) = closed ++ (v.closedBy? set log line).toList
        ∧ (v.endsShort log = false →
            (v.unclosed? set log).isSome = (v.closedBy? set log line).isSome
              ∧ (v.reads line = false → v.unclosed? set log = v.closedBy? set log line)) := by
  rw [results_eq_filterMap_yield?, results_append_closing h]
  rcases List.eq_nil_or_concat (openings v.opens log) with hnone | ⟨ds, d, hds⟩
  · rw [unclosed?, closedBy?, hnone]
    exact ⟨[], rfl, rfl, fun _ => ⟨rfl, fun _ => rfl⟩⟩
  · rw [List.concat_eq_append] at hds
    have hlt : ∀ i ∈ ds ++ [d], i < log.length := fun i hi => lt_length_of_mem_openings (hds ▸ hi)
    have hd : d < log.length := hlt d (List.mem_append_right _ (List.mem_singleton_self d))
    have hbounds : ∀ final, bounds final (ds ++ [d]) = bounds d ds ++ [⟨d, final⟩] :=
      fun final => bounds_append final d ds []
    -- All sections but the last end on a line of the log itself.
    have hclosed : ∀ s ∈ bounds d ds, v.yield? set (log ++ [line]) s = v.yield? set log s := by
      intro s hs
      have hfirst := hlt _ (List.mem_append_left _ (first_mem_of_mem_bounds hs))
      have hlast : s.last < log.length := by
        rcases last_of_mem_bounds hs with hmem | heq
        · exact hlt _ (List.mem_append_left _ hmem)
        · rw [heq]; exact hd
      rw [yield?, yield?, v.mine?_append_left set hfirst hlast]
    have hunclosed : v.unclosed? set log = v.yield? set log ⟨d, log.length - 1⟩ := by
      rw [unclosed?, hds, List.getLast?_concat, Option.bind_some]
    have hclosedBy : v.closedBy? set log line = v.yield? set (log ++ [line]) ⟨d, log.length⟩ := by
      rw [closedBy?, hds, List.getLast?_concat, Option.bind_some]
    rw [hunclosed, hclosedBy]
    refine ⟨(bounds d ds).filterMap (v.yield? set log), ?_, ?_, fun hshort => ?_⟩
    · rw [hds, hbounds, List.filterMap_append, filterMap_singleton_yield?]
    · rw [hds, hbounds, List.filterMap_append, filterMap_singleton_yield?,
        List.filterMap_congr hclosed]
    · exact yield?_closing set hd (by simpa [endsShort, hds] using hshort)

/-- **What two logs in a row yield.** Let the second log start with a line that opens a section. Then the
    logs together yield what the first one yields with that line behind it, followed by what the second
    one yields. The line behind the first log makes no difference but to the section that this log ends
    with. That section is mined with it if and only if it is mined without it, unless it is just too
    short without it; and it yields the same if the line is not one that is read. In that case the logs
    together yield what they yield on their own. -/
theorem results_concat {v : Variant} {line : String} (h : v.opens line = true) (set : String)
    (log rest : List String) :
    v.results set (log ++ line :: rest)
        = v.results set (log ++ [line]) ++ v.results set (line :: rest)
      ∧ (∃ closed : List Outcome,
          v.results set log = closed ++ (v.unclosed? set log).toList
            ∧ v.results set (log ++ [line]) = closed ++ (v.closedBy? set log line).toList
            ∧ (v.endsShort log = false →
                (v.unclosed? set log).isSome = (v.closedBy? set log line).isSome))
      ∧ (v.endsShort log = false → v.reads line = false →
          v.results set (log ++ line :: rest) = v.results set log ++ v.results set (line :: rest)) := by
  have hparts := results_append h set log rest
  obtain ⟨closed, hlog, hline, hsame⟩ := results_closing h set log
  refine ⟨hparts, ⟨closed, hlog, hline, fun hshort => (hsame hshort).1⟩, ?_⟩
  intro hshort hread
  rw [hparts, hline, ← (hsame hshort).2 hread, hlog]

/-- Two logs of one section each. -/
theorem results_concat_syscall :
    syscall.opens "krp_insts=384" = true
      ∧ syscall.results "fl" (["krp_insts=96", "8"] ++ "krp_insts=384" :: ["8", "8"])
        = syscall.results "fl" ["krp_insts=96", "8"] ++ syscall.results "fl" ["krp_insts=384", "8", "8"] :=
  ⟨by decide, (results_concat (by decide) "fl" _ _).2.2 (by decide) (by decide)⟩

/-- Neither condition can go. Five records behind an opening are a section if an opening follows, and none
    at the end of a log; and an opening that looks like a record is taken for one of the section that it
    closes. -/
theorem results_not_additive :
    let short :=
      ["insmod",
        "[1.0] fl : threads:8 preempt:0 max: 384 cycle: 0 a:0 b:1 delta: 10 hits: 1 missed: 0",
        "[2.0] fl : threads:8 preempt:0 max: 384 cycle: 0 a:0 b:1 delta: 10 hits: 2 missed: 0",
        "[3.0] fl : threads:8 preempt:0 max: 384 cycle: 0 a:0 b:1 delta: 10 hits: 3 missed: 0",
        "[4.0] fl : threads:8 preempt:0 max: 384 cycle: 0 a:0 b:1 delta: 10 hits: 4 missed: 0",
        "[5.0] fl : threads:8 preempt:0 max: 384 cycle: 0 a:0 b:1 delta: 10 hits: 5 missed: 0"]
    let bare := ["insmod", "a", "b", "c", "d", "e", "f"]
    (counter.opens "insmod" = true
        ∧ counter.results "arm64" (short ++ ["insmod"])
          = [.recorded ⟨"fl:384/0-1"⟩ 4 4000000000 0 false]
        ∧ counter.results "arm64" short = []
        ∧ counter.results "arm64" ["insmod"] = [])
      ∧ counter.opens "insmod threads:" = true
        ∧ counter.results "arm64" (bare ++ ["insmod threads:"])
          = [.skipped (.line (.noMatch .counterRecord "insmod threads:"))]
        ∧ counter.results "arm64" bare = [.skipped .noRecords]
        ∧ counter.results "arm64" ["insmod threads:"] = [] := by
  refine ⟨⟨by decide, ?_, ?_, ?_⟩, by decide, ?_, ?_, ?_⟩
  all_goals rw [results_eq_filterMap, sections, sections_eq_filter]
  all_goals decide

end Variant

end BenchLog
