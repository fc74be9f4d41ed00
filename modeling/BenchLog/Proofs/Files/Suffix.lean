import BenchLog.Proofs.Files.Changes

/-!
# `BenchLog.Proofs.Files.Suffix` — files named by a common ending

The files of a job have one path up to their ending. An ending without a slash belongs to the last name of
a path, and one of three characters or more makes that name neither idle nor a step up. So a path with such
an ending leads to a location whose last name ends like that, and paths with different endings of one length
lead to different locations, whatever stands before the endings.

## Contents
- `Path.segments_append`, an ending belongs to the last segment; `Path.join_append`, and to the joined path;
- `Disk.resolve?_append`, where a path with an ending leads;
- `Disk.apart_of_suffix_ne`, `Disk.apart_of_append_ne`: paths that lead to different locations.
-/

namespace BenchLog

namespace Path

theorem segmentsFrom_of_not_mem {cs : List Char} (h : '/' ∉ cs) (current : List Char) :
    segmentsFrom current cs = [current.reverse ++ cs] := by
  induction cs generalizing current with
  | nil => rw [segmentsFrom, List.append_nil]
  | cons c cs ih =>
      rw [List.mem_cons, not_or] at h
      rw [segmentsFrom, if_neg (Ne.symm h.1), ih h.2, List.reverse_cons, List.append_assoc,
        List.singleton_append]

theorem segmentsFrom_append {suffix : List Char} (h : '/' ∉ suffix) (current cs : List Char) :
    ∃ above last, segmentsFrom current cs = above ++ [last]
      ∧ segmentsFrom current (cs ++ suffix) = above ++ [last ++ suffix] := by
  induction cs generalizing current with
  | nil => exact ⟨[], current.reverse, rfl, segmentsFrom_of_not_mem h current⟩
  | cons c cs ih =>
      rw [List.cons_append, segmentsFrom, segmentsFrom]
      by_cases hc : c = '/'
      · obtain ⟨above, last, hcs, happend⟩ := ih []
        rw [if_pos hc, if_pos hc, hcs, happend]
        exact ⟨current.reverse :: above, last, rfl, rfl⟩
      · rw [if_neg hc, if_neg hc]
        exact ih (c :: current)

/-- An ending without a slash belongs to the last segment of a path. -/
theorem segments_append {suffix : List Char} (h : '/' ∉ suffix) (path : List Char) :
    ∃ above last, segments path = above ++ [last]
      ∧ segments (path ++ suffix) = above ++ [last ++ suffix] :=
  segmentsFrom_append h [] path

/-- A name with an ending is joined to a directory as the name is. -/
theorem join_append {suffix : String} (h : '/' ∉ suffix.toList) (directory name : String) :
    join directory (name ++ suffix) = join directory name ++ suffix := by
  have hhead : (name ++ suffix).toList.head? = some '/' ↔ name.toList.head? = some '/' := by
    rw [String.toList_append, List.head?_append]
    cases name.toList.head? with
    | some c => rfl
    | none =>
        rw [Option.none_or]
        exact ⟨fun hsuffix => absurd (List.mem_of_mem_head? hsuffix) h, fun he => nomatch he⟩
  unfold join
  by_cases habsolute : name.toList.head? = some '/' ∨ directory = ""
  · rw [if_pos habsolute, if_pos (habsolute.imp_left hhead.2)]
  · rw [if_neg habsolute, if_neg (mt (Or.imp_left hhead.1) habsolute)]
    split
    · rw [String.append_assoc]
    · rw [← String.append_assoc]

end Path

namespace Disk

variable {d : Disk} {l : Location} {path suffix : String}

theorem steps_append (h : '/' ∉ suffix.toList) (path : String) :
    ∃ above last, steps path = above ++ [last] ∧ steps (path ++ suffix) = above ++ [last ++ suffix] := by
  obtain ⟨above, last, hpath, happend⟩ := Path.segments_append h path.toList
  refine ⟨above.map String.ofList, String.ofList last, ?_, ?_⟩
  · rw [steps, hpath, List.map_append, List.map_singleton]
  · rw [steps, String.toList_append, happend, List.map_append, List.map_singleton,
      String.ofList_append, String.ofList_toList]

/-- A name of three characters or more is neither idle nor a step up, so that a step along it leads to it. -/
theorem eq_of_step? {segment : String} {k : Location} (hlong : 2 < segment.toList.length)
    (h : d.step? k segment = some l) : l = k ++ [segment] := by
  have hne : ∀ short : String, short.toList.length ≤ 2 → segment ≠ short := by
    rintro short hshort rfl
    omega
  have hidle : ¬(segment = "" ∨ segment = ".") := not_or.2 ⟨hne "" (by decide), hne "." (by decide)⟩
  have hup : segment ≠ ".." := hne ".." (by decide)
  unfold step? at h
  rw [if_neg hidle, if_neg hup] at h
  split at h
  · exact nomatch h
  · split at h
    · exact (Option.some.inj h).symm
    · exact nomatch h

/-- A path with an ending leads to a location whose last name is that of the path with the ending. -/
theorem resolve?_append (hslash : '/' ∉ suffix.toList) (hlong : 2 < suffix.toList.length)
    (h : d.resolve? (path ++ suffix) = some l) :
    ∃ above, l = above ++ [(steps path).getLastD "" ++ suffix] := by
  unfold resolve? at h
  split at h
  · obtain ⟨above, last, hpath, hsteps⟩ := steps_append hslash path
    rw [hsteps, List.foldlM_append] at h
    obtain ⟨k, _, hstep⟩ := Option.bind_eq_some_iff.1 h
    simp only [List.foldlM_cons, List.foldlM_nil, bind_pure] at hstep
    rw [hpath, List.getLastD_concat]
    refine ⟨k, eq_of_step? ?_ hstep⟩
    rw [String.toList_append, List.length_append]
    omega
  · exact nomatch h

variable {other suffix' : String}

/-- Paths that lead to one location have last names that agree with their endings. -/
theorem eq_of_resolve?_append (hslash : '/' ∉ suffix.toList) (hslash' : '/' ∉ suffix'.toList)
    (hlong : 2 < suffix.toList.length) (hlong' : 2 < suffix'.toList.length)
    (h : d.resolve? (path ++ suffix) = some l) (h' : d.resolve? (other ++ suffix') = some l) :
    (steps path).getLastD "" ++ suffix = (steps other).getLastD "" ++ suffix' := by
  obtain ⟨above, hl⟩ := resolve?_append hslash hlong h
  obtain ⟨above', hl'⟩ := resolve?_append hslash' hlong' h'
  exact List.singleton_inj.1 (List.append_inj' (hl.symm.trans hl') rfl).2

/-- Paths with different endings of one length do not lead to one location. -/
theorem apart_of_suffix_ne (hslash : '/' ∉ suffix.toList) (hslash' : '/' ∉ suffix'.toList)
    (hlong : 2 < suffix.toList.length) (hlength : suffix.toList.length = suffix'.toList.length)
    (hne : suffix ≠ suffix') : d.Apart (path ++ suffix) (other ++ suffix') := by
  intro l h h'
  have hlong' : 2 < suffix'.toList.length := hlength ▸ hlong
  have htext := congrArg String.toList (eq_of_resolve?_append hslash hslash' hlong hlong' h h')
  rw [String.toList_append, String.toList_append] at htext
  -- The names before the endings may differ, but endings of one length are cut off at one place.
  have hsuffix : suffix.toList = suffix'.toList := (List.append_inj' htext hlength).2
  exact hne (String.toList_inj.1 hsuffix)

/-- One path with two different endings does not lead to one location. -/
theorem apart_of_append_ne (hslash : '/' ∉ suffix.toList) (hslash' : '/' ∉ suffix'.toList)
    (hlong : 2 < suffix.toList.length) (hlong' : 2 < suffix'.toList.length) (hne : suffix ≠ suffix') :
    d.Apart (path ++ suffix) (path ++ suffix') := by
  intro l h h'
  have htext := eq_of_resolve?_append hslash hslash' hlong hlong' h h'
  exact hne ((String.append_right_inj _).1 htext)

end Disk

end BenchLog
