import BenchLog.Proofs.Mining.Entries
import BenchLog.Proofs.Table.Keys

/-!
# `BenchLog.Proofs.Mining.Declare` — the rows that a set declares

Before a miner of the syscall log reads anything, it declares the rows of its set: one for every listed
number of instances, and a hidden one for all others. A hidden row is not brought back by what is entered
later, and no listed number is called like the row for all others, so that this row is never seen, whatever
the sets of the logs are called.

## Contents
- `Matrix.declare`, `Variant.declare`, and `Variant.freshTables_eq_declare`;
- `Matrix.OthersHidden`, no row for all others is visible, kept by declaring and by entering;
- `Matrix.Declares`, the rows of a set are there, and declaring them again does nothing;
- `Matrix.absorb_declare`, declaring before or after laying tables over others.
-/

namespace BenchLog

/-! ## Declaring the rows of a set -/

/-- Declares a row for every listed number of instances, and a hidden one for all others. -/
def Matrix.declare (set : String) (m : Matrix) : Matrix :=
  ((Axis.syscallInstances.labels.map (RowKey.labelled set)).foldl Matrix.ensure m).hide
    (.labelled set Axis.otherLabel)

/-- Declares the rows of a set. Those of the counter log are found, not declared. -/
def Variant.declare (v : Variant) (set : String) (t : Tables) : Tables :=
  match v with
  | .counter => t
  | .syscall => ⟨t.values.declare set, t.missed.declare set⟩

theorem Tables.foldl_ensure (keys : List RowKey) (t : Tables) :
    keys.foldl ensure t = ⟨keys.foldl Matrix.ensure t.values, keys.foldl Matrix.ensure t.missed⟩ := by
  induction keys generalizing t with
  | nil => rfl
  | cons key keys ih => exact ih (t.ensure key)

/-- A new miner has declared the rows of its set. -/
theorem Variant.freshTables_eq_declare (v : Variant) (set : String) :
    v.freshTables set = v.declare set (.empty v.columns) := by
  cases v with
  | counter => rfl
  | syscall =>
      rw [freshTables, Tables.foldl_ensure]
      rfl

/-- The row of a number is that of a listed number, or the one for all others. -/
theorem Syscall.rowOf_cases (set : String) (instances : UInt64) :
    (∃ n, rowOf set instances = .labelled set (Decimal.text n))
      ∨ rowOf set instances = .labelled set Axis.otherLabel := by
  rw [rowOf, Axis.label?]
  cases Axis.syscallInstances.values[Axis.syscallInstances.bucketOf instances]? with
  | none => exact Or.inr rfl
  | some n => exact Or.inl ⟨n, rfl⟩

namespace Matrix

variable {axis : Axis} {m other : Matrix} {set : String}

theorem WellFormed.foldl_ensure (h : WellFormed axis m) (keys : List RowKey) :
    WellFormed axis (keys.foldl Matrix.ensure m) := by
  induction keys generalizing m with
  | nil => exact h
  | cons key keys ih => exact ih (h.ensure key)

theorem WellFormed.declare (h : WellFormed axis m) (set : String) :
    WellFormed axis (m.declare set) :=
  (h.foldl_ensure _).hide _

theorem mem_keys_foldl_ensure {keys : List RowKey} {k : RowKey} :
    k ∈ (keys.foldl ensure m).keys ↔ k ∈ m.keys ∨ k ∈ keys := by
  induction keys generalizing m with
  | nil => simp
  | cons key keys ih => rw [List.foldl_cons, ih, keys_ensure, mem_addKey, List.mem_cons, or_assoc]

/-! ## The rows for all others stay hidden -/

/-- No row for all unlisted numbers is visible, of whichever set. -/
def OthersHidden (m : Matrix) : Prop :=
  ∀ set, m.visible? (.labelled set Axis.otherLabel) ≠ some true

/-- The rows of a set are there: one for every listed number, and a hidden one for all others. -/
structure Declares (set : String) (m : Matrix) : Prop where
  listed : ∀ label ∈ Axis.syscallInstances.labels, RowKey.labelled set label ∈ m.keys
  other : m.visible? (.labelled set Axis.otherLabel) = some false

theorem OthersHidden.empty (axis : Axis) : (empty axis).OthersHidden :=
  fun _ h => nomatch h

theorem OthersHidden.foldl_ensure (h : m.OthersHidden) (set : String) {labels : List String}
    (hlabels : ∀ label ∈ labels, ∃ n, label = Decimal.text n) :
    ((labels.map (RowKey.labelled set)).foldl Matrix.ensure m).OthersHidden := by
  induction labels generalizing m with
  | nil => exact h
  | cons label labels ih =>
      obtain ⟨⟨n, rfl⟩, hrest⟩ := List.forall_mem_cons.1 hlabels
      refine ih (fun set' => ?_) hrest
      rw [visible?_ensure, if_neg (RowKey.labelled_text_ne_other set set' n).symm]
      exact h set'

theorem OthersHidden.declare (h : m.OthersHidden) (set : String) : (m.declare set).OthersHidden := by
  have hlabels : ∀ label ∈ Axis.syscallInstances.labels, ∃ n, label = Decimal.text n := by
    intro label hlabel
    obtain ⟨n, _, rfl⟩ := List.mem_map.1 hlabel
    exact ⟨n, rfl⟩
  intro set'
  rw [Matrix.declare, visible?_hide]
  split
  · exact fun he => nomatch he
  · exact h.foldl_ensure set hlabels set'

theorem declares_declare (set : String) (m : Matrix) : (m.declare set).Declares set where
  listed := by
    intro label hlabel
    rw [declare, keys_hide, mem_addKey, mem_keys_foldl_ensure]
    exact Or.inl (Or.inr (List.mem_map_of_mem hlabel))
  other := by rw [declare, visible?_hide, if_pos rfl]

theorem Declares.write (h : m.Declares set) (key : RowKey) (bucket : Nat) (value : UInt64) :
    (m.write key bucket value).Declares set where
  listed := by
    intro label hlabel
    rw [keys_write, mem_addKey]
    exact Or.inl (h.listed label hlabel)
  other := by
    rw [visible?_write, h.other]
    split <;> rfl

/-- An entry for the row of a number does not bring about a visible row for all others, because that row
    is there by then and hidden. -/
theorem OthersHidden.write (h : m.OthersHidden) (hdeclares : m.Declares set) (instances : UInt64)
    (bucket : Nat) (value : UInt64) :
    (m.write (Syscall.rowOf set instances) bucket value).OthersHidden := by
  intro set'
  rw [visible?_write]
  split
  · next hrow =>
      rcases Syscall.rowOf_cases set instances with ⟨n, hn⟩ | hother
      · exact absurd (hn.symm.trans hrow.symm) (RowKey.labelled_text_ne_other set set' n)
      · rw [hrow, hother, hdeclares.other]
        exact fun he => nomatch he
  · exact h set'

section Writes

variable {es : List Entry} {value : Entry → UInt64}

theorem Declares.foldl_write (h : m.Declares set) :
    (es.foldl (fun m e => m.write e.row e.bucket (value e)) m).Declares set := by
  induction es generalizing m with
  | nil => exact h
  | cons e es ih => exact ih (h.write e.row e.bucket (value e))

theorem OthersHidden.foldl_write (h : m.OthersHidden) (hdeclares : m.Declares set)
    (hrow : ∀ e ∈ es, ∃ instances, e.row = Syscall.rowOf set instances) :
    (es.foldl (fun m e => m.write e.row e.bucket (value e)) m).OthersHidden := by
  induction es generalizing m with
  | nil => exact h
  | cons e es ih =>
      obtain ⟨⟨instances, he⟩, hrows⟩ := List.forall_mem_cons.1 hrow
      have hwrite := h.write hdeclares instances e.bucket (value e)
      rw [← he] at hwrite
      exact ih hwrite (hdeclares.write e.row e.bucket (value e)) hrows

end Writes

/-! ## Declaring before or after -/

theorem absorb_foldl_ensure (hm : WellFormed axis m) (hother : WellFormed axis other)
    (keys : List RowKey) :
    m.absorb (keys.foldl ensure other) = keys.foldl ensure (m.absorb other) := by
  induction keys generalizing other with
  | nil => rfl
  | cons key keys ih =>
      rw [List.foldl_cons, List.foldl_cons, ih (hother.ensure key), absorb_ensure hm hother]

theorem absorb_declare (hm : WellFormed axis m) (hother : WellFormed axis other)
    (hhidden : m.OthersHidden) (set : String) :
    m.absorb (other.declare set) = (m.absorb other).declare set := by
  rw [declare, absorb_hide hm (hother.foldl_ensure _) (hhidden set), absorb_foldl_ensure hm hother,
    declare]

/-- Declaring a set again does nothing. -/
theorem Declares.declare_eq (h : m.Declares set) (hm : WellFormed axis m) : m.declare set = m := by
  have hensure : ∀ keys : List RowKey, (∀ key ∈ keys, key ∈ m.keys) → keys.foldl ensure m = m := by
    intro keys hkeys
    induction keys with
    | nil => rfl
    | cons key keys ih =>
        obtain ⟨hkey, hrest⟩ := List.forall_mem_cons.1 hkeys
        rw [List.foldl_cons, hm.ensure_of_mem hkey, ih hrest]
  rw [declare, hensure _ (List.forall_mem_map.2 h.listed), hm.hide_of_hidden h.other]

end Matrix

theorem Variant.wellFormed_declare {v : Variant} {t : Tables} (h : t.WellFormed v.columns)
    (set : String) : (v.declare set t).WellFormed v.columns := by
  cases v with
  | counter => exact h
  | syscall => exact ⟨h.values.declare set, h.missed.declare set⟩

end BenchLog
