import BenchLog.Proofs.Table.Absorb
import Mathlib.Data.List.Induction

/-!
# `BenchLog.Proofs.Table.History` — laying over against doing over again

A matrix can be laid over another one, or all that was done to make it can be done over again to the other
one. Every operation comes down to three things, a key that is added, a cell that may be written, and a row
that may be hidden; and for each of the three, doing a history over again to a matrix depends on what it makes
of the empty matrix alone. That is also how laying over is described, so the two can be compared law by law.

Keys and cells agree throughout. Visibility does not: a row that is hidden in the history ends up hidden when
the history is done over again, but laying over leaves a row that is visible below as it is. A key with a
visible row below and a hidden one above is therefore the only difference there can be.

## Contents
- `Matrix.Operation`, `Matrix.apply`, `Matrix.replay`: a history of operations, done to a matrix;
- `keys_apply`, `visible?_apply`, `WellFormed.get?_apply`: one operation by the three things it comes down to;
- `keys_replay`, `visible?_replay`, `get?_replay`: a history by what it makes of the empty matrix;
- `absorb_replay_eq_iff`.
-/

namespace BenchLog

namespace Matrix

/-! ## Histories -/

/-- What can be done to the row of one key. -/
inductive Operation where
  | ensure (key : RowKey)
  | write (key : RowKey) (bucket : Nat) (value : UInt64)
  | hide (key : RowKey)
deriving DecidableEq

/-- A matrix after one operation. -/
def apply (m : Matrix) : Operation → Matrix
  | .ensure key => m.ensure key
  | .write key bucket value => m.write key bucket value
  | .hide key => m.hide key

/-- A matrix after the operations of a history, done in order. -/
def replay (m : Matrix) (history : List Operation) : Matrix := history.foldl apply m

theorem replay_append (m : Matrix) (first second : List Operation) :
    m.replay (first ++ second) = (m.replay first).replay second :=
  List.foldl_append

theorem replay_concat (m : Matrix) (history : List Operation) (op : Operation) :
    m.replay (history ++ [op]) = (m.replay history).apply op :=
  List.foldl_concat ..

namespace Operation

/-- The key whose row there is after an operation. -/
def key : Operation → RowKey
  | .ensure key => key
  | .write key _ _ => key
  | .hide key => key

/-- Whether the row of the key is hidden after an operation, whatever it was before. -/
def hides : Operation → Bool
  | .hide _ => true
  | _ => false

/-- What an operation writes to a cell, if it writes to that one. -/
def written? (axis : Axis) (op : Operation) (k : RowKey) (b : Nat) : Option UInt64 :=
  match op with
  | .write key bucket value => if k = key ∧ b = min bucket axis.unmapped then some value else none
  | _ => none

end Operation

/-! ## One operation -/

variable {axis : Axis} {m : Matrix}

theorem WellFormed.apply (h : WellFormed axis m) (op : Operation) : WellFormed axis (m.apply op) := by
  cases op with
  | ensure key => exact h.ensure key
  | write key bucket value => exact h.write key bucket value
  | hide key => exact h.hide key

theorem keys_apply (m : Matrix) (op : Operation) : (m.apply op).keys = addKey m.keys op.key := by
  cases op with
  | ensure key => exact keys_ensure
  | write key bucket value => exact keys_write
  | hide key => exact keys_hide

theorem visible?_apply (m : Matrix) (op : Operation) (k : RowKey) :
    (m.apply op).visible? k
      = if k = op.key then some (!op.hides && (m.visible? k).getD true) else m.visible? k := by
  cases op with
  | ensure key => exact visible?_ensure k
  | write key bucket value => exact visible?_write k
  | hide key => exact visible?_hide k

theorem WellFormed.get?_apply (h : WellFormed axis m) (op : Operation) (k : RowKey) (b : Nat) :
    (m.apply op).get? k b = (op.written? axis k b).or (m.get? k b) := by
  cases op with
  | ensure key => exact get?_ensure k b
  | hide key => exact get?_hide k b
  | write key bucket value =>
      show (m.write key bucket value).get? k b = _
      rw [h.get?_write, Operation.written?]
      split <;> rfl

/-! ## A history -/

theorem WellFormed.replay (h : WellFormed axis m) (history : List Operation) :
    WellFormed axis (m.replay history) := by
  induction history generalizing m with
  | nil => exact h
  | cons op history ih => exact ih (h.apply op)

/-- A key that is new in the history comes behind the known ones. -/
theorem keys_replay (axis : Axis) (m : Matrix) (history : List Operation) :
    (m.replay history).keys = m.keys ++ ((empty axis).replay history).keys.filter (· ∉ m.keys) := by
  -- The last operation comes on top of both sides, so histories are taken apart at their end.
  induction history using List.reverseRecOn with
  | nil =>
      show m.keys = m.keys ++ [].filter _
      rw [List.filter_nil, List.append_nil]
  | append_singleton history op ih =>
      rw [replay_concat, replay_concat, keys_apply, keys_apply, ih, append_filter_addKey]

/-- What comes of the visibility of a row when a history is done over again: a row that it does not name
    stays as it was, and one that it names stays or becomes visible unless it is hidden on either side. -/
def visibleOver (before : Option Bool) : Option Bool → Option Bool
  | none => before
  | some after => some (after && before.getD true)

theorem visible?_replay (axis : Axis) (m : Matrix) (history : List Operation) (k : RowKey) :
    (m.replay history).visible? k
      = visibleOver (m.visible? k) (((empty axis).replay history).visible? k) := by
  induction history using List.reverseRecOn with
  | nil => rfl
  | append_singleton history op ih =>
      rw [replay_concat, replay_concat, visible?_apply, visible?_apply, ih]
      by_cases hk : k = op.key
      · rw [if_pos hk, if_pos hk]
        cases ((empty axis).replay history).visible? k with
        | none => simp [visibleOver]
        | some visible => simp [visibleOver, Bool.and_assoc]
      · rw [if_neg hk, if_neg hk]

/-- A cell holds what the history wrote to it last, or what it held before. -/
theorem WellFormed.get?_replay (h : WellFormed axis m) (history : List Operation) (k : RowKey)
    (b : Nat) :
    (m.replay history).get? k b
      = (((Matrix.empty axis).replay history).get? k b).or (m.get? k b) := by
  induction history using List.reverseRecOn with
  | nil => rfl
  | append_singleton history op ih =>
      have hmade : WellFormed axis ((Matrix.empty axis).replay history) :=
        (WellFormed.empty axis).replay history
      rw [replay_concat, replay_concat, (h.replay history).get?_apply, hmade.get?_apply, ih,
        Option.or_assoc]

/-! ## Laying over against doing over again -/

/-- Laying over lets a row below decide that is there; doing over again lets either side hide it. -/
theorem or_eq_visibleOver_iff (before after : Option Bool) :
    before.or after = visibleOver before after ↔ ¬(before = some true ∧ after = some false) := by
  cases before with
  | none => cases after <;> simp [visibleOver]
  | some visible => cases after <;> cases visible <;> simp [visibleOver]

/-- **Laying a matrix over another is doing its history over again, but for rows that it hides.** Take what
    two histories make of the empty matrix, and lay the second matrix over the first. The outcome has the
    keys, in order, and the cells of the matrix that both histories make one after the other. It is that
    matrix if and only if no key has a visible row in the first matrix and a hidden one in the second. -/
theorem absorb_replay_eq_iff (axis : Axis) (first second : List Operation) :
    let below := (empty axis).replay first
    let above := (empty axis).replay second
    let both := (empty axis).replay (first ++ second)
    (below.absorb above).keys = both.keys
      ∧ (∀ key bucket, (below.absorb above).get? key bucket = both.get? key bucket)
      ∧ (below.absorb above = both
          ↔ ¬∃ key, below.visible? key = some true ∧ above.visible? key = some false) := by
  intro below above both
  have hbelow : WellFormed axis below := (WellFormed.empty axis).replay first
  have habove : WellFormed axis above := (WellFormed.empty axis).replay second
  have hboth : both = below.replay second := replay_append _ first second
  have hkeys : (below.absorb above).keys = both.keys := by
    rw [hboth, keys_absorb habove.keys_nodup, keys_replay axis below]
  have hcells : ∀ key bucket, (below.absorb above).get? key bucket = both.get? key bucket := by
    intro key bucket
    rw [hboth, hbelow.get?_absorb habove, hbelow.get?_replay]
  have hvisible : ∀ key, (below.absorb above).visible? key = both.visible? key
      ↔ ¬(below.visible? key = some true ∧ above.visible? key = some false) := by
    intro key
    rw [hboth, visible?_absorb, visible?_replay axis below]
    exact or_eq_visibleOver_iff _ _
  refine ⟨hkeys, hcells, ?_⟩
  constructor
  · rintro heq ⟨key, hrehidden⟩
    exact (hvisible key).1 (congrArg (·.visible? key) heq) hrehidden
  · intro hnone
    have hwell : WellFormed axis both := by
      rw [hboth]
      exact hbelow.replay second
    refine ext_view (hbelow.absorb above) hwell hkeys ?_ hcells
    intro key
    exact (hvisible key).2 fun hrehidden => hnone ⟨key, hrehidden⟩

/-- A row that is hidden above stays visible if it was visible below. -/
example :
    let key : RowKey := .labelled "fl" "other"
    let below := (empty .syscallThreads).replay [.write key 0 1]
    let above := (empty .syscallThreads).replay [.write key 0 2, .hide key]
    (below.absorb above).visible? key = some true
      ∧ (below.replay [.write key 0 2, .hide key]).visible? key = some false := by decide

end Matrix

end BenchLog
