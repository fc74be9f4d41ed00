import BenchLog.Axis
import BenchLog.Proofs.Decimal.Numeral
import BenchLog.Table.Row

/-!
# `BenchLog.Proofs.Table.Keys` — keys that can be told apart

The key of a labelled row is the name of a set, a colon and a label. The name may hold colons itself, but no
label does, so that the last colon of a key shows where its label begins. The key of a scenario is a tag and
three numbers with a separator in front of each. The tag may hold separators and digits in any order, but no
number holds a separator, so that the key can be taken apart from the right.

## Contents
- `Decimal.colon_not_mem_text`, `Axis.colon_not_mem_otherLabel`, what numbers and labels do not hold;
- `append_cons_inj_of_not_mem`, `append_append_inj_of_not_mem`, texts around a separator;
- `RowKey.labelled_inj`, `RowKey.scenario_inj`, and `RowKey.labelled_text_ne_other`.
-/

namespace BenchLog

theorem Decimal.colon_not_mem_text (n : UInt64) : ':' ∉ (Decimal.text n).toList :=
  Decimal.not_mem_text (by decide) n

theorem Axis.colon_not_mem_otherLabel : ':' ∉ Axis.otherLabel.toList := by decide

theorem Decimal.text_ne_otherLabel (n : UInt64) : Decimal.text n ≠ Axis.otherLabel := by
  intro h
  have hmem : 'o' ∈ (Decimal.text n).toList := by
    rw [h]
    decide
  exact absurd (Decimal.isDigit_of_mem_text hmem) (by decide)

/-- Texts that are joined by a character which the first of them does not hold can be taken apart. -/
theorem append_cons_inj_of_not_mem {c : Char} {xs xs' ys ys' : List Char} (h : c ∉ xs)
    (h' : c ∉ xs') (heq : xs ++ c :: ys = xs' ++ c :: ys') : xs = xs' ∧ ys = ys' := by
  rcases List.append_eq_append_iff.1 heq with ⟨zs, rfl, hz⟩ | ⟨zs, rfl, hz⟩
  · cases zs with
    | nil => exact ⟨(List.append_nil _).symm, (List.cons.inj hz).2⟩
    | cons z zs =>
        obtain rfl := (List.cons.inj hz).1
        exact absurd (List.mem_append_right _ List.mem_cons_self) h'
  · cases zs with
    | nil => exact ⟨List.append_nil _, (List.cons.inj hz).2.symm⟩
    | cons z zs =>
        obtain rfl := (List.cons.inj hz).1
        exact absurd (List.mem_append_right _ List.mem_cons_self) h

/-- Texts that are joined by a character which the second of them does not hold can be taken apart at the last
    such character, whatever the first of them holds. -/
theorem append_append_inj_of_not_mem {c : Char} {sep : String} (hsep : sep.toList = [c])
    {s s' t t' : String} (h : c ∉ t.toList) (h' : c ∉ t'.toList) :
    s ++ sep ++ t = s' ++ sep ++ t' ↔ s = s' ∧ t = t' := by
  constructor
  · intro heq
    -- The last separator is the first one of the text read backwards.
    have htext := congrArg (fun text : String => text.toList.reverse) heq
    simp only [String.toList_append, hsep, List.reverse_append, List.reverse_cons, List.reverse_nil,
      List.nil_append, List.singleton_append] at htext
    obtain ⟨ht, hs⟩ :=
      append_cons_inj_of_not_mem (by rwa [List.mem_reverse]) (by rwa [List.mem_reverse]) htext
    exact ⟨String.toList_inj.1 (List.reverse_inj.1 hs), String.toList_inj.1 (List.reverse_inj.1 ht)⟩
  · rintro ⟨rfl, rfl⟩
    rfl

/-- A labelled key gives back its set and its label, whatever the set holds, as long as no label holds a
    colon. -/
theorem RowKey.labelled_inj {set set' label label' : String} (h : ':' ∉ label.toList)
    (h' : ':' ∉ label'.toList) :
    RowKey.labelled set label = RowKey.labelled set' label' ↔ set = set' ∧ label = label' := by
  rw [labelled, labelled, RowKey.mk.injEq]
  exact append_append_inj_of_not_mem (by decide) h h'

/-- A scenario key gives back its trimmed tag and its numbers, whatever the tag holds. It is read from the
    right: no number holds a separator. -/
theorem RowKey.scenario_inj {tag tag' : String} {max max' a a' b b' : UInt64} :
    RowKey.scenario tag max a b = RowKey.scenario tag' max' a' b'
      ↔ Text.trimText tag = Text.trimText tag' ∧ max = max' ∧ a = a' ∧ b = b' := by
  have hlast := Decimal.not_mem_text (c := '-') (by decide)
  have hmiddle := Decimal.not_mem_text (c := '/') (by decide)
  rw [scenario, scenario, RowKey.mk.injEq,
    append_append_inj_of_not_mem (c := '-') (by decide) (hlast b) (hlast b'),
    append_append_inj_of_not_mem (c := '/') (by decide) (hmiddle a) (hmiddle a'),
    append_append_inj_of_not_mem (c := ':') (by decide) (Decimal.colon_not_mem_text max)
      (Decimal.colon_not_mem_text max'),
    Decimal.text_inj, Decimal.text_inj, Decimal.text_inj, and_assoc, and_assoc]

/-- The row of a listed number is never the row for all others, not even of another set. -/
theorem RowKey.labelled_text_ne_other (set set' : String) (n : UInt64) :
    RowKey.labelled set (Decimal.text n) ≠ RowKey.labelled set' Axis.otherLabel := by
  intro h
  rw [RowKey.labelled_inj (Decimal.colon_not_mem_text n) Axis.colon_not_mem_otherLabel] at h
  exact Decimal.text_ne_otherLabel n h.2

end BenchLog
