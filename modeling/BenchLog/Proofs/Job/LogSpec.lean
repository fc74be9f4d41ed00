import BenchLog.Job.LogSpec
import BenchLog.Proofs.Files.Name
import Mathlib.Data.List.TakeWhile

/-!
# `BenchLog.Proofs.Job.LogSpec` — which texts name a log

A text with an equals sign is cut at the first one. It names a log if something is left on both sides once the
blanks around them are gone, so a set and a path that were written with an equals sign between them are read
back. A text without one is a path. It names a log if the path names a file, and the set is then the stem of
that name.

Whether a part is empty is asked of both forms. A path alone never fails there: a path that names a file is
not empty, and neither is the stem of its name.

## Contents
- `splitAtEquals?_append`, `splitAtEquals?_of_not_mem`, the cut;
- `ofText?_append`, texts with an equals sign; `ofText?_of_not_mem`, paths alone;
- `ofText?_decodes`.
-/

namespace BenchLog.LogSpec

open BenchLog.Text

variable {set path cs : List Char} {text : String}

/-! ## The cut -/

theorem splitAtEquals?_append (h : '=' ∉ set) (path : List Char) :
    splitAtEquals? (set ++ '=' :: path) = some (set, path) := by
  have hpass : ∀ c ∈ set, (c != '=') = true := forall_bne_iff.2 h
  have hends : Ends (· != '=') ('=' :: path) := ends_cons (by decide)
  rw [splitAtEquals?, dropWhile_append_of_ends hpass hends, takeWhile_append_of_ends hpass hends]

theorem splitAtEquals?_of_not_mem (h : '=' ∉ cs) : splitAtEquals? cs = none := by
  have hpass : ∀ c ∈ cs, (c != '=') = true := forall_bne_iff.2 h
  rw [splitAtEquals?, List.dropWhile_eq_nil_iff.2 hpass]

/-! ## The two forms -/

theorem ofText?_append (h : '=' ∉ set) (path : List Char) :
    ofText? (String.ofList (set ++ '=' :: path))
      = if trim set = [] ∨ trim path = [] then none
        else some ⟨String.ofList (trim set), String.ofList (trim path)⟩ := by
  have hparts : parts? (set ++ '=' :: path) = some (trim set, trim path) := by
    rw [parts?, splitAtEquals?_append h]
  rw [ofText?, String.toList_ofList, hparts]
  simp

/-- A path alone that names a file passes the check: neither the path nor the stem is empty. -/
theorem ofText?_of_not_mem (h : '=' ∉ text.toList) :
    ofText? text
      = (Path.fileStem? (trim text.toList)).map fun set => ⟨String.ofList set, trimText text⟩ := by
  have hparts : parts? text.toList
      = (Path.fileStem? (trim text.toList)).map fun set => (set, trim text.toList) := by
    rw [parts?, splitAtEquals?_of_not_mem h]
  rw [ofText?, hparts]
  cases hstem : Path.fileStem? (trim text.toList) with
  | none => rfl
  | some set =>
      obtain ⟨name, hnames, hset⟩ := Path.fileStem?_eq_some_iff.1 hstem
      have hsetNe : set ≠ [] := hset.ne_nil hnames.name_ne_nil
      have hpathNe : trim text.toList ≠ [] := hnames.path_ne_nil
      simp [hsetNe, hpathNe, trimText]

/-- **Log specifications are decoded, and only empty ones are rejected.** A set without an equals sign and a
    path, neither of them empty or blank at an end, are read back from a text with an equals sign between
    them, whatever blanks stand around either. Any text with an equals sign is rejected exactly if nothing
    but blanks stands on a side of the first one. A text without one is rejected exactly if it names no file
    once the blanks around it are gone, and else gives this path and the stem of its name, which is not
    empty. -/
theorem ofText?_decodes :
    (∀ set path before after before' after' : List Char,
        set ≠ [] → '=' ∉ set → Trimmed set → path ≠ [] → Trimmed path →
        (∀ c ∈ before ++ after ++ (before' ++ after'), isBlank c = true) →
        ofText? (String.ofList (before ++ (set ++ after) ++ '=' :: (before' ++ (path ++ after'))))
          = some ⟨String.ofList set, String.ofList path⟩)
      ∧ (∀ set path : List Char, '=' ∉ set →
          (ofText? (String.ofList (set ++ '=' :: path)) = none ↔ trim set = [] ∨ trim path = []))
      ∧ ∀ text : String, '=' ∉ text.toList →
          (ofText? text = none ↔ Path.Nameless (trim text.toList))
          ∧ ∀ spec, ofText? text = some spec
              ↔ spec.path = trimText text ∧ spec.set ≠ ""
                ∧ ∃ name, Path.Names (trim text.toList) name ∧ Path.Stem name spec.set.toList := by
  refine ⟨?_, ?_, ?_⟩
  · intro set path before after before' after' hset hequals hsetTrimmed hpath hpathTrimmed hblanks
    simp only [List.forall_mem_append] at hblanks
    obtain ⟨⟨hbefore, hafter⟩, hbefore', hafter'⟩ := hblanks
    -- The first equals sign is the one behind the set, since it is no blank.
    have hnot : '=' ∉ before ++ (set ++ after) := by
      intro h
      rcases List.mem_append.1 h with h | h
      · exact absurd (hbefore '=' h) (by decide)
      · rcases List.mem_append.1 h with h | h
        · exact hequals h
        · exact absurd (hafter '=' h) (by decide)
    rw [ofText?_append hnot, trim_append hbefore hafter hset hsetTrimmed,
      trim_append hbefore' hafter' hpath hpathTrimmed, if_neg (not_or.2 ⟨hset, hpath⟩)]
  · intro set path hequals
    rw [ofText?_append hequals]
    by_cases hempty : trim set = [] ∨ trim path = []
    · rw [if_pos hempty]
      exact iff_of_true rfl hempty
    · rw [if_neg hempty]
      exact iff_of_false (Option.some_ne_none _) hempty
  · intro text hequals
    rw [ofText?_of_not_mem hequals]
    refine ⟨by rw [Option.map_eq_none_iff, Path.fileStem?_eq_none_iff], fun spec => ?_⟩
    simp only [Option.map_eq_some_iff, Path.fileStem?_eq_some_iff]
    constructor
    · rintro ⟨set, ⟨name, hnames, hstem⟩, rfl⟩
      have hne : set ≠ [] := hstem.ne_nil hnames.name_ne_nil
      refine ⟨rfl, ?_, name, hnames, by rwa [String.toList_ofList]⟩
      simpa using hne
    · rintro ⟨hpath, -, name, hnames, hstem⟩
      refine ⟨spec.set.toList, ⟨name, hnames, hstem⟩, ?_⟩
      rw [String.ofList_toList, ← hpath]

theorem ofText?_decodes_spaced :
    ofText? (String.ofList [' ', 'o', 'p', '+', ' ', '=', '\t', 'a', '=', 'b', ' '])
        = some ⟨String.ofList ['o', 'p', '+'], String.ofList ['a', '=', 'b']⟩
      ∧ (ofText? "logs/.." = none ↔ Path.Nameless (trim "logs/..".toList)) := by
  have hset : Trimmed ['o', 'p', '+'] := ⟨ends_cons (by decide), ends_cons (by decide)⟩
  have hpath : Trimmed ['a', '=', 'b'] := ⟨ends_cons (by decide), ends_cons (by decide)⟩
  have hblanks : ∀ c ∈ [' '] ++ [' '] ++ (['\t'] ++ [' ']), isBlank c = true :=
    List.all_eq_true.1 (by decide)
  refine ⟨?_, (ofText?_decodes.2.2 "logs/.." (by decide)).1⟩
  exact ofText?_decodes.1 ['o', 'p', '+'] ['a', '=', 'b'] [' '] [' '] ['\t'] [' '] (by decide) (by decide)
    hset (by decide) hpath hblanks

end BenchLog.LogSpec
