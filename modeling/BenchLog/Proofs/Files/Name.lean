import BenchLog.Proofs.Files.Suffix
import BenchLog.Proofs.Text.Piece
import Mathlib.Data.List.Induction

/-!
# `BenchLog.Proofs.Files.Name` — which paths name a file

A path names the last of its segments that is not idle, unless that is a step up. `Names` and `Nameless` say
this without taking the path apart: a slash at the end, alone or with a single dot behind it, changes nothing,
and what is left is judged by its end. A path is a single segment or a shorter path with a slash and a segment
behind it, so that one law for either form decides the name of every path.

The stem of a name is what stands before its last point, or the whole name if it has no point behind its first
character.

## Contents
- `IsName`, `Nameless`, `Names`, `Stem`;
- `segmentInduction`, paths one segment after the other;
- `fileName?_eq_none_iff`, `fileName?_eq_some_iff`;
- `fileStem?_eq_none_iff`, `fileStem?_eq_some_iff`.
-/

namespace BenchLog.Path

open BenchLog.Text

variable {path name stem last ext : List Char}

/-- May name a file: a segment that is neither idle nor a step up. -/
def IsName (name : List Char) : Prop :=
  '/' ∉ name ∧ name ≠ [] ∧ name ≠ ['.'] ∧ name ≠ ['.', '.']

/-- Paths that name no file. Slashes at the end do not count, with or without a single dot behind them; what
    stands before them is nothing, a single dot, or ends in a step up. -/
inductive Nameless : List Char → Prop
  | empty : Nameless []
  | here : Nameless ['.']
  | up : Nameless ['.', '.']
  | stepUp (above : List Char) : Nameless (above ++ ['/', '.', '.'])
  | slash {path : List Char} : Nameless path → Nameless (path ++ ['/'])
  | slashDot {path : List Char} : Nameless path → Nameless (path ++ ['/', '.'])

/-- Paths and the files they name. -/
inductive Names : List Char → List Char → Prop
  | bare {name : List Char} : IsName name → Names name name
  | inside (above : List Char) {name : List Char} : IsName name → Names (above ++ '/' :: name) name
  | slash {path name : List Char} : Names path name → Names (path ++ ['/']) name
  | slashDot {path name : List Char} : Names path name → Names (path ++ ['/', '.']) name

/-- File names and what is left of them without their extension. -/
inductive Stem : List Char → List Char → Prop
  | whole {name : List Char} : '.' ∉ name.tail → Stem name name
  | cut {stem ext : List Char} : stem ≠ [] → '.' ∉ ext → Stem (stem ++ '.' :: ext) stem

/-! ## Segments -/

theorem segmentsFrom_append_slash (h : '/' ∉ last) (current above : List Char) :
    segmentsFrom current (above ++ '/' :: last) = segmentsFrom current above ++ [last] := by
  induction above generalizing current with
  | nil =>
      rw [List.nil_append, segmentsFrom, segmentsFrom, if_pos rfl, segmentsFrom_of_not_mem h]
      rfl
  | cons c above ih =>
      rw [List.cons_append, segmentsFrom, segmentsFrom]
      by_cases hc : c = '/'
      · rw [if_pos hc, if_pos hc, ih, List.cons_append]
      · rw [if_neg hc, if_neg hc, ih]

/-- Every path is a single segment, or a shorter path with a slash and a segment behind it. -/
theorem segmentInduction {P : List Char → Prop} (single : ∀ cs, '/' ∉ cs → P cs)
    (append : ∀ above last, '/' ∉ last → P above → P (above ++ '/' :: last)) (path : List Char) :
    P path := by
  -- The segment at the end is put together from its last character on.
  have hend : ∀ above last, '/' ∉ last → P (above ++ last) := by
    intro above
    induction above using List.reverseRecOn with
    | nil => exact fun last hlast => single last hlast
    | append_singleton above c ih =>
        intro last hlast
        rw [List.append_assoc, List.singleton_append]
        by_cases hc : c = '/'
        · rw [hc]
          have habove : P above := by simpa using ih [] (by simp)
          exact append above last hlast habove
        · exact ih (c :: last) (by simp [Ne.symm hc, hlast])
  simpa using hend path [] (by simp)

/-! ## The name of a file -/

/-- A single segment names itself, unless it is idle or a step up. -/
theorem fileName?_of_not_mem (h : '/' ∉ last) :
    fileName? last
      = if isIdle last then none else if last = ['.', '.'] then none else some last := by
  unfold fileName? segments
  rw [segmentsFrom_of_not_mem h]
  by_cases hidle : isIdle last = true
  · simp [hidle]
  · simp [hidle]

/-- An idle segment at the end leaves the name to what stands before it. -/
theorem fileName?_append_slash (h : '/' ∉ last) (above : List Char) :
    fileName? (above ++ '/' :: last)
      = if isIdle last then fileName? above else if last = ['.', '.'] then none else some last := by
  unfold fileName? segments
  rw [segmentsFrom_append_slash h, List.filter_append]
  by_cases hidle : isIdle last = true
  · simp [hidle]
  · simp [hidle]

theorem isIdle_iff : isIdle last = true ↔ last = [] ∨ last = ['.'] := by
  simp [isIdle]

theorem IsName.not_idle (h : IsName name) : ¬ isIdle name = true := by
  rw [isIdle_iff]
  exact not_or.2 ⟨h.2.1, h.2.2.1⟩

theorem fileName?_of_nameless (h : Nameless path) : fileName? path = none := by
  induction h with
  | empty => rfl
  | here => rfl
  | up => rfl
  | stepUp above => exact fileName?_append_slash (by decide) above
  | slash _ ih => exact (fileName?_append_slash (by decide) _).trans ih
  | slashDot _ ih => exact (fileName?_append_slash (by decide) _).trans ih

theorem fileName?_of_names (h : Names path name) : fileName? path = some name := by
  induction h with
  | bare h => rw [fileName?_of_not_mem h.1, if_neg h.not_idle, if_neg h.2.2.2]
  | inside above h => rw [fileName?_append_slash h.1, if_neg h.not_idle, if_neg h.2.2.2]
  | slash _ ih => exact (fileName?_append_slash (by decide) _).trans ih
  | slashDot _ ih => exact (fileName?_append_slash (by decide) _).trans ih

theorem isName_or (h : '/' ∉ last) : IsName last ∨ last = [] ∨ last = ['.'] ∨ last = ['.', '.'] := by
  unfold IsName
  tauto

/-- Every path names a file or none. -/
theorem nameless_or_names (path : List Char) : Nameless path ∨ ∃ name, Names path name := by
  induction path using segmentInduction with
  | single cs hcs =>
      rcases isName_or hcs with hname | rfl | rfl | rfl
      · exact Or.inr ⟨cs, .bare hname⟩
      · exact Or.inl .empty
      · exact Or.inl .here
      · exact Or.inl .up
  | append above last hlast ih =>
      rcases isName_or hlast with hname | rfl | rfl | rfl
      · exact Or.inr ⟨last, .inside above hname⟩
      · exact ih.imp .slash fun ⟨name, h⟩ => ⟨name, .slash h⟩
      · exact ih.imp .slashDot fun ⟨name, h⟩ => ⟨name, .slashDot h⟩
      · exact Or.inl (.stepUp above)

theorem fileName?_eq_none_iff : fileName? path = none ↔ Nameless path := by
  refine ⟨fun h => ?_, fileName?_of_nameless⟩
  rcases nameless_or_names path with hnameless | ⟨name, hnames⟩
  · exact hnameless
  · rw [fileName?_of_names hnames] at h
    exact nomatch h

theorem fileName?_eq_some_iff : fileName? path = some name ↔ Names path name := by
  refine ⟨fun h => ?_, fileName?_of_names⟩
  rcases nameless_or_names path with hnameless | ⟨name', hnames⟩
  · rw [fileName?_of_nameless hnameless] at h
    exact nomatch h
  · rw [fileName?_of_names hnames] at h
    rwa [← Option.some.inj h]

/-! ## The stem of a name -/

theorem cut?_of_not_mem_tail (h : '.' ∉ name.tail) : cut? name = none := by
  cases name with
  | nil => rfl
  | cons c cs =>
      have hpass : ∀ d ∈ cs.reverse, (d != '.') = true :=
        forall_bne_iff.2 fun hmem => h (List.mem_reverse.1 hmem)
      unfold cut?
      rw [List.reverse_cons, List.dropWhile_append_of_pos hpass]
      by_cases hc : c = '.'
      · simp [hc]
      · simp [hc]

theorem cut?_append (hstem : stem ≠ []) (hext : '.' ∉ ext) :
    cut? (stem ++ '.' :: ext) = some (stem, ext) := by
  have hpass : ∀ d ∈ ext.reverse, (d != '.') = true :=
    forall_bne_iff.2 fun hmem => hext (List.mem_reverse.1 hmem)
  have hends : Ends (· != '.') ('.' :: stem.reverse) := ends_cons (by decide)
  have hparts : (stem ++ '.' :: ext).reverse = ext.reverse ++ '.' :: stem.reverse := by simp
  unfold cut?
  rw [hparts, dropWhile_append_of_ends hpass hends, takeWhile_append_of_ends hpass hends]
  simp [hstem]

/-- A point behind the first character is the last one of some cut. -/
theorem exists_cut_of_mem_tail (h : '.' ∈ name.tail) :
    ∃ stem ext, stem ≠ [] ∧ '.' ∉ ext ∧ name = stem ++ '.' :: ext := by
  cases name with
  | nil => exact nomatch h
  | cons c cs =>
      obtain ⟨after, before, hcs, hafter⟩ := List.eq_append_cons_of_mem (List.mem_reverse.2 h)
      refine ⟨c :: before.reverse, after.reverse, List.cons_ne_nil _ _, by simpa using hafter, ?_⟩
      have hcs' := congrArg List.reverse hcs
      simp at hcs'
      simp [hcs']

theorem stem_iff : ((cut? name).map Prod.fst).getD name = stem ↔ Stem name stem := by
  constructor
  · rintro rfl
    by_cases hpoint : '.' ∈ name.tail
    · obtain ⟨stem, ext, hstem, hext, rfl⟩ := exists_cut_of_mem_tail hpoint
      rw [cut?_append hstem hext]
      exact .cut hstem hext
    · rw [cut?_of_not_mem_tail hpoint]
      exact .whole hpoint
  · intro h
    cases h with
    | whole hpoint => rw [cut?_of_not_mem_tail hpoint]; rfl
    | cut hstem hext => rw [cut?_append hstem hext]; rfl

theorem fileStem?_eq_none_iff : fileStem? path = none ↔ Nameless path := by
  rw [fileStem?, Option.map_eq_none_iff, fileName?_eq_none_iff]

theorem fileStem?_eq_some_iff :
    fileStem? path = some stem ↔ ∃ name, Names path name ∧ Stem name stem := by
  rw [fileStem?, Option.map_eq_some_iff]
  simp only [fileName?_eq_some_iff, stem_iff]

example : fileStem? ['a', '/', 'b', '.', 'c', '/', '.'] = some ['b'] := by decide

theorem Names.name_ne_nil (h : Names path name) : name ≠ [] := by
  induction h with
  | bare h => exact h.2.1
  | inside _ h => exact h.2.1
  | slash _ ih => exact ih
  | slashDot _ ih => exact ih

theorem Names.path_ne_nil (h : Names path name) : path ≠ [] := by
  cases h with
  | bare h => exact h.2.1
  | inside => simp
  | slash => simp
  | slashDot => simp

theorem Stem.ne_nil (h : Stem name stem) (hname : name ≠ []) : stem ≠ [] := by
  cases h with
  | whole => exact hname
  | cut hstem => exact hstem

end BenchLog.Path
