import BenchLog.Mining.Counter
import BenchLog.Proofs.Mining.Outline

/-!
# `BenchLog.Proofs.Mining.Rows` — which sections share a row

A section of the counter log goes to the row of its scenario, one of the syscall log to a row of its set. The
keys of these rows are texts that are put together without any escaping, out of names that come from the logs
and the settings and may hold anything. They tell the rows apart all the same, since the names stand at the
front and what follows them is numbers and separators: a key is taken apart from the right.

## Contents
- `Counter.rowOf_eq_iff`, the records that share a row;
- `Syscall.rowOf_eq_iff`, the numbers of instances that share a row;
- `RowKey.identifies_row`.
-/

namespace BenchLog

open BenchLog.Record

/-- Records share a row if they are of one scenario. -/
theorem Counter.rowOf_eq_iff {r r' : CounterRecord} :
    rowOf r = rowOf r'
      ↔ Text.trimText r.tag = Text.trimText r'.tag ∧ r.max = r'.max ∧ r.a = r'.a ∧ r.b = r'.b :=
  RowKey.scenario_inj

namespace Syscall

/-- The label of a number of instances: its own text if it is listed. -/
def rowLabel (instances : UInt64) : String :=
  if instances ∈ Axis.syscallInstances.values then Decimal.text instances else Axis.otherLabel

theorem colon_not_mem_rowLabel (instances : UInt64) : ':' ∉ (rowLabel instances).toList := by
  unfold rowLabel
  split
  · exact Decimal.colon_not_mem_text instances
  · exact Axis.colon_not_mem_otherLabel

/-- Numbers of instances have the same label if they have the same bucket. -/
theorem rowLabel_eq_iff {instances instances' : UInt64} :
    rowLabel instances = rowLabel instances'
      ↔ Axis.syscallInstances.bucketOf instances = Axis.syscallInstances.bucketOf instances' := by
  rw [Axis.bucketOf_eq_iff]
  unfold rowLabel
  by_cases hmem : instances ∈ Axis.syscallInstances.values <;>
    by_cases hmem' : instances' ∈ Axis.syscallInstances.values
  · rw [if_pos hmem, if_pos hmem', Decimal.text_inj]
    exact ⟨Or.inl, fun h => h.resolve_right fun hnot => hnot.1 hmem⟩
  · rw [if_pos hmem, if_neg hmem']
    refine iff_of_false (Decimal.text_ne_otherLabel _) ?_
    rintro (rfl | ⟨hnot, -⟩)
    · exact hmem' hmem
    · exact hnot hmem
  · rw [if_neg hmem, if_pos hmem']
    refine iff_of_false (Ne.symm (Decimal.text_ne_otherLabel _)) ?_
    rintro (rfl | ⟨-, hnot⟩)
    · exact hmem hmem'
    · exact hnot hmem'
  · rw [if_neg hmem, if_neg hmem']
    exact iff_of_true rfl (Or.inr ⟨hmem, hmem'⟩)

/-- Sections share a row if they are of one set and their numbers of instances have one bucket. -/
theorem rowOf_eq_iff {set set' : String} {instances instances' : UInt64} :
    rowOf set instances = rowOf set' instances'
      ↔ set = set'
        ∧ Axis.syscallInstances.bucketOf instances = Axis.syscallInstances.bucketOf instances' := by
  rw [rowOf_eq, rowOf_eq, ← rowLabel_eq_iff]
  exact RowKey.labelled_inj (colon_not_mem_rowLabel instances) (colon_not_mem_rowLabel instances')

end Syscall

/-- **Keys tell rows apart.** Two scenarios have the same key exactly if their tags are the same but for blanks
    at the ends and their numbers are the same, whatever the tags hold: separators, digits, whole keys. Two
    labelled rows have the same key exactly if set and label are the same, whatever the sets hold, where the
    labels are those of the listed numbers of instances or the one for all others. So records share a row only
    within a scenario, and numbers of instances only within a set and a bucket. -/
theorem RowKey.identifies_row :
    (∀ (tag tag' : String) (max max' a a' b b' : UInt64),
        RowKey.scenario tag max a b = RowKey.scenario tag' max' a' b'
          ↔ Text.trimText tag = Text.trimText tag' ∧ max = max' ∧ a = a' ∧ b = b')
      ∧ (∀ set set' label label' : String,
          label ∈ Axis.syscallInstances.labels ++ [Axis.otherLabel] →
          label' ∈ Axis.syscallInstances.labels ++ [Axis.otherLabel] →
            (RowKey.labelled set label = RowKey.labelled set' label' ↔ set = set' ∧ label = label'))
      ∧ (∀ r r' : CounterRecord, Counter.rowOf r = Counter.rowOf r'
          ↔ Text.trimText r.tag = Text.trimText r'.tag ∧ r.max = r'.max ∧ r.a = r'.a ∧ r.b = r'.b)
      ∧ ∀ (set set' : String) (instances instances' : UInt64),
          Syscall.rowOf set instances = Syscall.rowOf set' instances'
            ↔ set = set'
              ∧ Axis.syscallInstances.bucketOf instances = Axis.syscallInstances.bucketOf instances' := by
  refine ⟨fun tag tag' max max' a a' b b' => scenario_inj, fun set set' label label' h h' => ?_,
    fun r r' => Counter.rowOf_eq_iff, fun set set' n n' => Syscall.rowOf_eq_iff⟩
  exact labelled_inj (Syscall.colon_not_mem_of_mem_setLabels h)
    (Syscall.colon_not_mem_of_mem_setLabels h')

/-- A set whose name looks like the key of another one. -/
theorem RowKey.identifies_row_colons :
    "96" ∈ Axis.syscallInstances.labels ++ [Axis.otherLabel]
      ∧ "other" ∈ Axis.syscallInstances.labels ++ [Axis.otherLabel]
      ∧ RowKey.labelled "fl:96" "other" ≠ RowKey.labelled "fl" "96" := by
  have hlisted : "96" ∈ Axis.syscallInstances.labels ++ [Axis.otherLabel] := by decide
  have hother : "other" ∈ Axis.syscallInstances.labels ++ [Axis.otherLabel] := by decide
  obtain ⟨-, hlabelled, -⟩ := identifies_row
  refine ⟨hlisted, hother, fun h => ?_⟩
  exact absurd ((hlabelled _ _ _ _ hother hlisted).1 h).1 (by decide)

end BenchLog
