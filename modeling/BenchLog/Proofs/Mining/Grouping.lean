import BenchLog.Proofs.Mining.Merge
import BenchLog.Proofs.Table.Indexed

/-!
# `BenchLog.Proofs.Mining.Grouping` — logs merged group by group

A job lays the tables of its logs over one another one by one. They might as well be merged in groups, and
the groups in groups of groups, as long as no log changes place: laying over is associative, and tables
without rows change nothing. A log that is merged twice in a row counts once.

None of this asks how the tables came about. `IdempotentMonoid` says what an operation has to satisfy, and on
which things; with that alone a grouping comes to the same as its items one after the other
(`Grouping.total_eq_foldl`).

## Contents
- `IdempotentMonoid`, and `Grouping` with its `items` and its `total`;
- `Grouping.op_total`, by induction on the grouping, and `Grouping.total_eq_foldl`;
- `idempotentMonoid_absorb` for matrices and for tables, `Indexed.absorb?_assoc` and its like by way of an
  index;
- `absorb_idempotent_monoid`.
-/

namespace BenchLog

/-! ## Groups of groups -/

/-- On the things that satisfy `P`, an operation is associative and idempotent and has a unit. -/
structure IdempotentMonoid {α : Type} (P : α → Prop) (op : α → α → α) (unit : α) : Prop where
  unit_mem : P unit
  op_mem : ∀ a b, P a → P b → P (op a b)
  op_assoc : ∀ a b c, P a → P b → P c → op (op a b) c = op a (op b c)
  unit_op : ∀ a, P a → op unit a = a
  op_unit : ∀ a, P a → op a unit = a
  op_self : ∀ a, P a → op a a = a

/-- Items in order, in groups of any depth. -/
inductive Grouping (α : Type) where
  | none
  | single (item : α)
  | join (first second : Grouping α)

namespace Grouping

variable {α β : Type} {P : β → Prop} {op : β → β → β} {unit : β} {f : α → β}

/-- The items in order, without the groups. -/
def items : Grouping α → List α
  | none => []
  | single item => [item]
  | join first second => first.items ++ second.items

/-- What becomes of the items when every group is taken together on its own. -/
def total (op : β → β → β) (unit : β) (f : α → β) : Grouping α → β
  | none => unit
  | single item => f item
  | join first second => op (first.total op unit f) (second.total op unit f)

theorem total_mem (h : IdempotentMonoid P op unit) (hf : ∀ a, P (f a)) (g : Grouping α) :
    P (g.total op unit f) := by
  induction g with
  | none => exact h.unit_mem
  | single item => exact hf item
  | join first second ihfirst ihsecond => exact h.op_mem _ _ ihfirst ihsecond

/-- A group behind something is its items behind it one by one. -/
theorem op_total (h : IdempotentMonoid P op unit) (hf : ∀ a, P (f a)) (g : Grouping α) {start : β}
    (hstart : P start) :
    op start (g.total op unit f) = g.items.foldl (fun acc a => op acc (f a)) start := by
  induction g generalizing start with
  | none => exact h.op_unit start hstart
  | single item => rfl
  | join first second ihfirst ihsecond =>
      have hfirst := total_mem h hf first
      rw [total, items, List.foldl_append, ← ihfirst hstart,
        ← ihsecond (h.op_mem _ _ hstart hfirst)]
      exact (h.op_assoc _ _ _ hstart hfirst (total_mem h hf second)).symm

/-- A grouping comes to the same as its items one after the other. -/
theorem total_eq_foldl (h : IdempotentMonoid P op unit) (hf : ∀ a, P (f a)) (g : Grouping α) :
    g.total op unit f = g.items.foldl (fun acc a => op acc (f a)) unit := by
  rw [← op_total h hf g h.unit_mem, h.unit_op _ (total_mem h hf g)]

end Grouping

/-! ## Matrices and tables -/

theorem Matrix.idempotentMonoid_absorb (axis : Axis) :
    IdempotentMonoid (Matrix.Reachable axis) Matrix.absorb (.empty axis) where
  unit_mem := .empty
  op_mem _ _ ha hb := ha.absorb hb
  op_assoc _ _ _ ha hb hc := absorb_assoc ha.wellFormed hb.wellFormed hc.wellFormed
  unit_op _ ha := empty_absorb ha.wellFormed
  op_unit a _ := absorb_empty a axis
  op_self _ ha := absorb_self ha.wellFormed

theorem Tables.WellFormed.absorb {axis : Axis} {t : Tables} (h : t.WellFormed axis) (other : Tables) :
    (t.absorb other).WellFormed axis :=
  ⟨h.values.absorb other.values, h.missed.absorb other.missed⟩

/-- Both matrices of the pair obey the laws, each on its own. -/
theorem Tables.idempotentMonoid_absorb (axis : Axis) :
    IdempotentMonoid (Tables.WellFormed axis) Tables.absorb (.empty axis) where
  unit_mem := .empty axis
  op_mem _ b ha _ := ha.absorb b
  op_assoc _ _ _ ha hb hc :=
    congrArg₂ Tables.mk (Matrix.absorb_assoc ha.values hb.values hc.values)
      (Matrix.absorb_assoc ha.missed hb.missed hc.missed)
  unit_op _ ha := congrArg₂ Tables.mk (Matrix.empty_absorb ha.values) (Matrix.empty_absorb ha.missed)
  op_unit a _ := absorb_empty a axis
  op_self _ ha := congrArg₂ Tables.mk (Matrix.absorb_self ha.values) (Matrix.absorb_self ha.missed)

/-! ## Matrices with an index -/

namespace Indexed

variable {axis : Axis} {x y z : Indexed}

theorem absorb?_assoc (hx : Reachable axis x) (hy : Reachable axis y) (hz : Reachable axis z) :
    ∃ xy yz xyz, x.absorb? y = some xy ∧ y.absorb? z = some yz
      ∧ xy.absorb? z = some xyz ∧ x.absorb? yz = some xyz := by
  obtain ⟨a, ha, rfl⟩ := hx.exists_eq_indexed
  obtain ⟨b, hb, rfl⟩ := hy.exists_eq_indexed
  obtain ⟨c, hc, rfl⟩ := hz.exists_eq_indexed
  have hab : (a.absorb b).WellFormed axis := ha.wellFormed.absorb b
  have hassoc := Matrix.absorb_assoc ha.wellFormed hb.wellFormed hc.wellFormed
  refine ⟨_, _, _, Matrix.absorb?_indexed ha.wellFormed b, Matrix.absorb?_indexed hb.wellFormed c,
    Matrix.absorb?_indexed hab c, ?_⟩
  rw [hassoc]
  exact Matrix.absorb?_indexed ha.wellFormed (b.absorb c)

theorem empty_absorb? (hx : Reachable axis x) : (empty axis).absorb? x = some x := by
  obtain ⟨a, ha, rfl⟩ := hx.exists_eq_indexed
  have habsorb := Matrix.absorb?_indexed (.empty axis) a
  rwa [Matrix.empty_absorb ha.wellFormed] at habsorb

theorem absorb?_empty (x : Indexed) (axis : Axis) : x.absorb? (empty axis) = some x := rfl

theorem absorb?_self (hx : Reachable axis x) : x.absorb? x = some x := by
  obtain ⟨a, ha, rfl⟩ := hx.exists_eq_indexed
  have habsorb := Matrix.absorb?_indexed ha.wellFormed a
  rwa [Matrix.absorb_self ha.wellFormed] at habsorb

end Indexed

/-! ## Logs -/

theorem Variant.wellFormed_mineLog (v : Variant) (set : String) (lines : List String) :
    (mineLog v set lines).1.WellFormed v.columns := by
  rw [tables_mineLog]
  exact ((Tidy.empty v).mineOver (set, lines)).wellFormed

/-- **Merging is an idempotent monoid.** Take matrices over one axis that operations make of the empty one.
    When one is laid over another, keys stay where they were first seen, rows as visible as they were
    first seen, and cells as they were last written. All the same, laying over is associative, the empty
    matrix laid under or over changes nothing, and neither does a matrix laid over itself: what comes out
    are the same rows in the same order, as visible and with the same cells. By way of an index all of
    these have an outcome, and it has the same index too. Logs may therefore be merged in groups of any
    kind, empty ones included, as long as they keep their order. -/
theorem absorb_idempotent_monoid :
    (∀ axis, IdempotentMonoid (Matrix.Reachable axis) Matrix.absorb (.empty axis))
      ∧ (∀ axis a b, Matrix.Reachable axis a → Matrix.Reachable axis b →
          (a.absorb b).keys = a.keys ++ b.keys.filter (· ∉ a.keys)
            ∧ (∀ key, (a.absorb b).visible? key = (a.visible? key).or (b.visible? key))
            ∧ ∀ key bucket,
                (a.absorb b).get? key bucket = (b.get? key bucket).or (a.get? key bucket))
      ∧ (∀ axis x y z,
          Indexed.Reachable axis x → Indexed.Reachable axis y → Indexed.Reachable axis z →
          (∃ xy yz xyz, x.absorb? y = some xy ∧ y.absorb? z = some yz
              ∧ xy.absorb? z = some xyz ∧ x.absorb? yz = some xyz)
            ∧ (Indexed.empty axis).absorb? x = some x
            ∧ x.absorb? (.empty axis) = some x
            ∧ x.absorb? x = some x)
      ∧ ∀ (v : Variant) (g : Grouping (String × List String)),
          g.total Tables.absorb (.empty v.columns) (fun log => (mineLog v log.1 log.2).1)
            = v.merge g.items := by
  refine ⟨Matrix.idempotentMonoid_absorb, fun axis a b ha hb => ?_, fun axis x y z hx hy hz => ?_,
    fun v g => ?_⟩
  · exact ⟨Matrix.keys_absorb hb.wellFormed.keys_nodup, Matrix.visible?_absorb,
      ha.wellFormed.get?_absorb hb.wellFormed⟩
  · exact ⟨Indexed.absorb?_assoc hx hy hz, Indexed.empty_absorb? hx, Indexed.absorb?_empty x axis,
      Indexed.absorb?_self hx⟩
  · have hmine : ∀ log : String × List String, (mineLog v log.1 log.2).1.WellFormed v.columns :=
      fun log => v.wellFormed_mineLog log.1 log.2
    rw [Grouping.total_eq_foldl (Tables.idempotentMonoid_absorb v.columns) hmine g, Variant.merge]

/-- A row that is written, hidden, and written anew behind another one; and two logs, one of them in a group
    with an empty group. -/
theorem absorb_idempotent_monoid_hidden_between :
    let a := (Matrix.empty .syscallThreads).write (.labelled "fl" "96") 0 1
    let b := (Matrix.empty .syscallThreads).hide (.labelled "fl" "96")
    let c := ((Matrix.empty .syscallThreads).ensure (.labelled "sa" "96")).write (.labelled "fl" "96") 0 2
    (a.absorb b).absorb c = a.absorb (b.absorb c)
      ∧ b.absorb b = b
      ∧ (a.absorb b).visible? (.labelled "fl" "96") = some true
      ∧ (∃ ab bc abc, a.indexed.absorb? b.indexed = some ab ∧ b.indexed.absorb? c.indexed = some bc
          ∧ ab.absorb? c.indexed = some abc ∧ a.indexed.absorb? bc = some abc)
      ∧ (Grouping.join (.single ("fl", [])) (.join .none (.single ("sa", [])))).total Tables.absorb
            (.empty Variant.syscall.columns) (fun log => (mineLog .syscall log.1 log.2).1)
          = Variant.merge .syscall [("fl", []), ("sa", [])] := by
  intro a b c
  have ha : Matrix.Reachable .syscallThreads a := .write .empty _ _ _
  have hb : Matrix.Reachable .syscallThreads b := .hide .empty _
  have hc : Matrix.Reachable .syscallThreads c := .write (.ensure .empty _) _ _ _
  obtain ⟨hmonoid, hpolicy, hindexed, hlogs⟩ := absorb_idempotent_monoid
  obtain ⟨hassoc, -⟩ := hindexed _ _ _ _ (Indexed.reachable_indexed ha)
    (Indexed.reachable_indexed hb) (Indexed.reachable_indexed hc)
  refine ⟨(hmonoid _).op_assoc a b c ha hb hc, (hmonoid _).op_self b hb, ?_, hassoc, hlogs .syscall _⟩
  rw [(hpolicy _ a b ha hb).2.1]
  decide

/-- The order of two logs does count. -/
example :
    let a := (Matrix.empty .syscallThreads).write (.labelled "fl" "96") 0 1
    let b := (Matrix.empty .syscallThreads).write (.labelled "fl" "96") 0 2
    a.absorb b ≠ b.absorb a := by decide

end BenchLog
