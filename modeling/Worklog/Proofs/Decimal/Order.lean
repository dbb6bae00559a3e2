import Mathlib

/-!
# The order of binary64 numbers

Numbers that are not NaN are compared as their ranks are (`lt_iff_rank_lt`, `beq_iff_rank_eq`), and
ranks are linearly ordered. The two zeros have one rank; NaN has none of its own, and what is at
least as large as something is not NaN (`isNaN_of_le`). What is above zero does not equal it
(`beq_eq_false_of_pos`).
-/

namespace Worklog.Decimal

open Float.Model

/-- Where a number stands among all numbers: how far from zero its kind is, then its size. -/
def rankOf : UnpackedFloat → ℤ ×ₗ ℤ ×ₗ ℤ
  | .infinity .negative => toLex (-2, toLex (0, 0))
  | .finite .negative m e _ => toLex (-1, toLex (-e, -m))
  | .notANumber | .zero _ => toLex (0, toLex (0, 0))
  | .finite .positive m e _ => toLex (1, toLex (e, m))
  | .infinity .positive => toLex (2, toLex (0, 0))

theorem then_compare_eq_lt (e e' : Int) (m m' : Nat) :
    ((compare e e').then (compare m m') = .lt) ↔ e < e' ∨ e = e' ∧ m < m' := by
  rw [Ordering.then_eq_lt, Int.compare_eq_lt, Int.compare_eq_eq, Nat.compare_eq_lt]

theorem then_compare_eq_gt (e e' : Int) (m m' : Nat) :
    ((compare e e').then (compare m m') = .gt) ↔ e' < e ∨ e = e' ∧ m' < m := by
  rw [Ordering.then_eq_gt, Int.compare_eq_gt, Int.compare_eq_eq, Nat.compare_eq_gt]

theorem compare_eq_lt_iff {a b : UnpackedFloat} (ha : a.isNaN = false) (hb : b.isNaN = false) :
    a.compare b = some .lt ↔ rankOf a < rankOf b := by
  rcases a with ⟨_ | _⟩ | _ | _ | ⟨_ | _, m, e, _⟩ <;>
    rcases b with ⟨_ | _⟩ | _ | _ | ⟨_ | _, m', e', _⟩ <;>
    simp [UnpackedFloat.isNaN] at ha hb <;>
    simp [UnpackedFloat.compare, rankOf, Prod.Lex.toLex_lt_toLex, then_compare_eq_lt,
      then_compare_eq_gt]
  rfl

theorem compare_eq_eq_iff {a b : UnpackedFloat} (ha : a.isNaN = false) (hb : b.isNaN = false) :
    a.compare b = some .eq ↔ rankOf a = rankOf b := by
  rcases a with ⟨_ | _⟩ | _ | _ | ⟨_ | _, m, e, _⟩ <;>
    rcases b with ⟨_ | _⟩ | _ | _ | ⟨_ | _, m', e', _⟩ <;>
    simp [UnpackedFloat.isNaN] at ha hb <;>
    simp [UnpackedFloat.compare, rankOf]
  · rfl
  · rfl

/-- Where a number stands among all numbers. -/
def rank (x : Float) : ℤ ×ₗ ℤ ×ₗ ℤ :=
  rankOf x.toModel.unpack

theorem lt_iff_rank_lt {x y : Float} (hx : x.isNaN = false) (hy : y.isNaN = false) :
    x < y ↔ rank x < rank y := by
  rw [rank, rank, ← compare_eq_lt_iff hx hy]
  change decide (x.toModel.unpack.lt y.toModel.unpack = true) = true ↔ _
  rw [decide_eq_true_iff, UnpackedFloat.lt, beq_iff_eq]

theorem beq_iff_rank_eq {x y : Float} (hx : x.isNaN = false) (hy : y.isNaN = false) :
    (x == y) = true ↔ rank x = rank y := by
  rw [rank, rank, ← compare_eq_eq_iff hx hy]
  change x.toModel.unpack.beq y.toModel.unpack = true ↔ _
  rw [UnpackedFloat.beq, beq_iff_eq]

theorem le_iff_rank_le {x y : Float} (hx : x.isNaN = false) (hy : y.isNaN = false) :
    x ≤ y ↔ rank x ≤ rank y := by
  rw [le_iff_lt_or_eq, rank, rank, ← compare_eq_lt_iff hx hy, ← compare_eq_eq_iff hx hy]
  change decide (x.toModel.unpack.le y.toModel.unpack = true) = true ↔ _
  rw [decide_eq_true_iff, UnpackedFloat.le]
  rcases x.toModel.unpack.compare y.toModel.unpack with _ | ⟨_ | _ | _⟩ <;> simp [Ordering.isLE]

theorem isNaN_of_le {x y : Float} (h : x ≤ y) : y.isNaN = false := by
  change decide (x.toModel.unpack.le y.toModel.unpack = true) = true at h
  rw [decide_eq_true_iff, UnpackedFloat.le] at h
  change y.toModel.unpack.isNaN = false
  cases hy : y.toModel.unpack with
  | notANumber =>
    rw [hy] at h
    cases hx : x.toModel.unpack with
    | _ => simp [hx, UnpackedFloat.compare] at h
  | _ => rfl

theorem isNaN_of_lt {x y : Float} (h : x < y) : y.isNaN = false := by
  change decide (x.toModel.unpack.lt y.toModel.unpack = true) = true at h
  rw [decide_eq_true_iff, UnpackedFloat.lt] at h
  change y.toModel.unpack.isNaN = false
  cases hy : y.toModel.unpack with
  | notANumber =>
    rw [hy] at h
    cases hx : x.toModel.unpack with
    | _ => simp [hx, UnpackedFloat.compare] at h
  | _ => rfl

theorem beq_eq_false_of_pos {x : Float} (h : 0.0 < x) : (x == 0.0) = false := by
  have zero : (0.0 : Float).isNaN = false := by decide +kernel
  have number := isNaN_of_lt h
  rw [lt_iff_rank_lt zero number] at h
  rw [Bool.eq_false_iff, ne_eq, beq_iff_rank_eq number zero]
  exact h.ne'

end Worklog.Decimal
