import Mathlib.Data.Prod.Lex
import Mathlib.Order.Defs.Unbundled

/-!
# `BenchLog.Proofs.Selection.Real` — floating-point numbers as samples

Floating-point numbers are compared case by case: infinities, zeros and finite numbers of either sign, and
what is not a number compares with nothing. The comparison is a strict order all the same. To see that, every
number is given a rank, the first part of which is the case and the rest the size within the case; one number
is smaller than another exactly if both have a rank and their ranks are in that order.

## Contents
- `rank?`, the rank of a number, and `lt_iff_rank?`;
- `isStrictOrder_lt`, the order itself.
-/

namespace BenchLog.Real

open Float.Model

/-- The rank of a number: its case, then its size. What is not a number has none. -/
def rank? : UnpackedFloat → Option (Int ×ₗ Int ×ₗ Int)
  | .notANumber => none
  | .infinity .negative => some (toLex (-2, toLex (0, 0)))
  | .finite .negative m e _ => some (toLex (-1, toLex (-e, -m)))
  | .zero _ => some (toLex (0, toLex (0, 0)))
  | .finite .positive m e _ => some (toLex (1, toLex (e, m)))
  | .infinity .positive => some (toLex (2, toLex (0, 0)))

theorem compare_then_eq_lt {e e' : Int} {m m' : Nat} :
    (compare e e').then (compare m m') = .lt ↔ e < e' ∨ e = e' ∧ m < m' := by
  rw [Ordering.then_eq_lt, Int.compare_eq_lt, Int.compare_eq_eq, Nat.compare_eq_lt]

theorem compare_then_eq_gt {e e' : Int} {m m' : Nat} :
    (compare e e').then (compare m m') = .gt ↔ e' < e ∨ e = e' ∧ m' < m := by
  rw [Ordering.then_eq_gt, Int.compare_eq_gt, Int.compare_eq_eq, Nat.compare_eq_gt]

/-- Numbers are in the order of their ranks. Only two finite numbers of one sign are compared by their
    sizes. -/
theorem lt_iff_rank? (a b : UnpackedFloat) :
    a.lt b = true ↔ ∃ x ∈ rank? a, ∃ y ∈ rank? b, x < y := by
  unfold UnpackedFloat.lt
  rcases a with (_ | _) | _ | (_ | _) | ⟨_ | _, m, e, _⟩ <;>
    rcases b with (_ | _) | _ | (_ | _) | ⟨_ | _, m', e', _⟩ <;>
    dsimp only [UnpackedFloat.compare, rank?] <;>
    simp [Prod.Lex.toLex_lt_toLex, compare_then_eq_lt, compare_then_eq_gt]
  rfl

theorem lt_iff (a b : Float) :
    a < b ↔ ∃ x ∈ rank? a.toModel.unpack, ∃ y ∈ rank? b.toModel.unpack, x < y :=
  (decide_eq_true_iff).trans (lt_iff_rank? _ _)

/-- Floating-point numbers are strictly ordered, though not every two of them compare. -/
instance isStrictOrder_lt : IsStrictOrder Float (· < ·) where
  irrefl a hlt := by
    obtain ⟨x, hx, y, hy, hxy⟩ := (lt_iff a a).1 hlt
    obtain rfl := Option.some.inj (hx.symm.trans hy)
    exact lt_irrefl x hxy
  trans a b c hab hbc := by
    obtain ⟨x, hx, y, hy, hxy⟩ := (lt_iff a b).1 hab
    obtain ⟨y', hy', z, hz, hyz⟩ := (lt_iff b c).1 hbc
    obtain rfl := Option.some.inj (hy.symm.trans hy')
    exact (lt_iff a c).2 ⟨x, hx, z, hz, hxy.trans hyz⟩

end BenchLog.Real
