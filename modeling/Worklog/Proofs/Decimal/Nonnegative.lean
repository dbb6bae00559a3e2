import Worklog.Proofs.Decimal.Arithmetic

/-!
# Numbers that are not negative

A number that is not below zero is finite with such a value, or infinite (`nonneg_iff`). The sum of
two such numbers is no less than either (`le_add`): rounding does not cross the summands, and what
overflows is above all. A ratio of such numbers is not negative, although it may be no number at all
(`not_ratio_neg`).
-/

namespace Worklog

namespace Decimal

open Float.Model UnpackedFloat

/-- Whether a number is positive infinity. -/
def IsInfinite (x : Float) : Prop :=
  x.toModel.unpack = .infinity .positive

theorem isFinite_zero : (0.0 : Float).isFinite = true := by
  decide +kernel

theorem value_zero : value 0.0 = 0 := by
  rw [value, isZero_zero, valueOf_zero]

theorem le_of_isInfinite {x y : Float} (hx : x.isNaN = false) (hy : IsInfinite y) : x ≤ y := by
  have number : y.isNaN = false := congrArg UnpackedFloat.isNaN hy
  rw [le_iff_rank_le hx number, rank, rank, hy]
  rcases x.toModel.unpack with ⟨_ | _⟩ | _ | _ | ⟨_ | _, _, _, _⟩ <;>
    simp [rankOf, Prod.Lex.toLex_le_toLex]

theorem unpack_ne_notANumber {x : Float} (h : x.isNaN = false) :
    x.toModel.unpack ≠ .notANumber := by
  intro hu
  have number : x.isNaN = true := congrArg UnpackedFloat.isNaN hu
  exact Bool.false_ne_true (h.symm.trans number)

theorem IsInfinite.of_le {x y : Float} (hx : IsInfinite x) (h : x ≤ y) : IsInfinite y := by
  have number := isNaN_of_le h
  rw [le_iff_rank_le (congrArg UnpackedFloat.isNaN hx) number, rank, rank, hx] at h
  rcases hu : y.toModel.unpack with ⟨_ | _⟩ | _ | _ | ⟨_ | _, _, _, _⟩
  · simp [hu, rankOf, Prod.Lex.toLex_le_toLex] at h
  · exact hu
  · exact absurd hu (unpack_ne_notANumber number)
  · simp [hu, rankOf, Prod.Lex.toLex_le_toLex] at h
  · simp [hu, rankOf, Prod.Lex.toLex_le_toLex] at h
  · simp [hu, rankOf, Prod.Lex.toLex_le_toLex] at h

theorem nonneg_iff {x : Float} :
    0.0 ≤ x ↔ (x.isFinite = true ∧ 0 ≤ value x) ∨ IsInfinite x := by
  have zero := isNaN_of_isFinite isFinite_zero
  constructor
  · intro h
    by_cases finite : x.isFinite = true
    · rw [le_iff_value_le isFinite_zero finite, value_zero] at h
      exact .inl ⟨finite, h⟩
    · have number := isNaN_of_le h
      rw [le_iff_rank_le zero number, rank_of_isZero isZero_zero, rank] at h
      rcases hu : x.toModel.unpack with ⟨_ | _⟩ | _ | _ | _
      · rw [hu] at h
        exact absurd h (by decide)
      · exact .inr hu
      · exact absurd hu (unpack_ne_notANumber number)
      · exact absurd (congrArg UnpackedFloat.isFinite hu) finite
      · exact absurd (congrArg UnpackedFloat.isFinite hu) finite
  · rintro (⟨finite, h⟩ | infinite)
    · rwa [le_iff_value_le isFinite_zero finite, value_zero]
    · exact le_of_isInfinite zero infinite

theorem nonneg_of_pos {x : Float} (h : 0.0 < x) : 0.0 ≤ x := by
  have zero := isNaN_of_isFinite isFinite_zero
  exact (le_iff_rank_le zero (isNaN_of_lt h)).2 ((lt_iff_rank_lt zero (isNaN_of_lt h)).1 h).le

theorem not_neg_of_nonneg {x : Float} (h : 0.0 ≤ x) : ¬ x < 0.0 := by
  have zero := isNaN_of_isFinite isFinite_zero
  have number := isNaN_of_le h
  rw [lt_iff_rank_lt number zero]
  exact not_lt.2 ((le_iff_rank_le zero number).1 h)

theorem le_of_le_of_le {x y z : Float} (hx : x.isNaN = false) (hxy : x ≤ y) (hyz : y ≤ z) :
    x ≤ z := by
  have hy := isNaN_of_le hxy
  have hz := isNaN_of_le hyz
  rw [le_iff_rank_le hx hz]
  exact ((le_iff_rank_le hx hy).1 hxy).trans ((le_iff_rank_le hy hz).1 hyz)

/-- A result that is not negative is rounded or infinite. -/
theorem IsRounded.finite_or_isInfinite {x : Float} {q : ℚ} (h : IsRounded x q) (hq : 0 ≤ q) :
    (x.isFinite = true ∧ value x = rounded q) ∨ IsInfinite x := by
  rcases lt_or_ge (rounded q) (2 ^ 1024) with small | large
  · exact .inl (h.finite (by rwa [abs_of_nonneg (rounded_nonneg hq)]))
  · exact .inr (h.above large)

theorem IsRounded.nonneg {x : Float} {q : ℚ} (h : IsRounded x q) (hq : 0 ≤ q) : 0.0 ≤ x := by
  refine nonneg_iff.2 ((h.finite_or_isInfinite hq).imp_left (And.imp_right fun hv => ?_))
  rw [hv]
  exact rounded_nonneg hq

/-! ## Sums -/

theorem isInfinite_ofModel {a : UnpackedFloat} (h : a = .infinity .positive) :
    IsInfinite (.ofModel (.pack a)) := by
  rw [h]
  exact unpack_packedInfinity .positive

theorem unpack_of_nonneg {x : Float} (h : 0.0 ≤ x) :
    IsInfinite x ∨ (∃ s, x.toModel.unpack = .zero s) ∨
      ∃ s m e hm, x.toModel.unpack = .finite s m e hm :=
  (nonneg_iff.1 h).symm.imp_right fun finite => exists_of_isFinite finite.1

theorem isInfinite_add {x y : Float} (hx : 0.0 ≤ x) (hy : 0.0 ≤ y)
    (h : IsInfinite x ∨ IsInfinite y) : IsInfinite (x + y) := by
  refine isInfinite_ofModel ?_
  rcases h with ix | iy
  · rw [ix]
    rcases unpack_of_nonneg hy with hu | ⟨s, hu⟩ | ⟨s, m, e, hm, hu⟩ <;> rw [hu] <;> rfl
  · rw [iy]
    rcases unpack_of_nonneg hx with hu | ⟨s, hu⟩ | ⟨s, m, e, hm, hu⟩ <;> rw [hu] <;> rfl

theorem finite_or_isInfinite_add {x y : Float} (hx : 0.0 ≤ x) (hy : 0.0 ≤ y) :
    (x.isFinite = true ∧ y.isFinite = true ∧ (x + y).isFinite = true ∧
      value (x + y) = rounded (value x + value y)) ∨ IsInfinite (x + y) := by
  rcases nonneg_iff.1 hx with ⟨fx, vx⟩ | ix
  · rcases nonneg_iff.1 hy with ⟨fy, vy⟩ | iy
    · refine ((isRounded_add fx fy).finite_or_isInfinite (add_nonneg vx vy)).imp_left ?_
      exact fun sum => ⟨fx, fy, sum⟩
    · exact .inr (isInfinite_add hx hy (.inr iy))
  · exact .inr (isInfinite_add hx hy (.inl ix))

theorem value_nonneg {x : Float} (h : 0.0 ≤ x) : 0 ≤ value x := by
  rcases nonneg_iff.1 h with ⟨-, nonneg⟩ | infinite
  · exact nonneg
  · exact (congrArg valueOf infinite).ge

/-- A sum of numbers that are not negative is no less than either. -/
theorem le_add {x y : Float} (hx : 0.0 ≤ x) (hy : 0.0 ≤ y) : x ≤ x + y ∧ y ≤ x + y := by
  have vx := value_nonneg hx
  have vy := value_nonneg hy
  rcases finite_or_isInfinite_add hx hy with ⟨fx, fy, finite, sum⟩ | infinite
  · rw [le_iff_value_le fx finite, le_iff_value_le fy finite, sum]
    constructor
    · calc
        value x = rounded (value x) := (rounded_of_onGrid (onGrid_value x)).symm
        _ ≤ rounded (value x + value y) := rounded_mono (le_add_of_nonneg_right vy)
    · calc
        value y = rounded (value y) := (rounded_of_onGrid (onGrid_value y)).symm
        _ ≤ rounded (value x + value y) := rounded_mono (le_add_of_nonneg_left vx)
  · exact ⟨le_of_isInfinite (isNaN_of_le hx) infinite, le_of_isInfinite (isNaN_of_le hy) infinite⟩

theorem zero_le_add {x y : Float} (hx : 0.0 ≤ x) (hy : 0.0 ≤ y) : 0.0 ≤ x + y :=
  le_of_le_of_le (isNaN_of_isFinite isFinite_zero) hx (le_add hx hy).1

/-- A sum of numbers that are not negative is no less than any of them. -/
theorem le_foldl_add {xs : List Float} (h : ∀ x ∈ xs, 0.0 ≤ x) {s : Float} (hs : 0.0 ≤ s) :
    s ≤ xs.foldl (· + ·) s ∧ ∀ x ∈ xs, x ≤ xs.foldl (· + ·) s := by
  induction xs generalizing s with
  | nil =>
    have number := isNaN_of_le hs
    exact ⟨(le_iff_rank_le number number).2 le_rfl, nofun⟩
  | cons x xs ih =>
    rw [List.forall_mem_cons] at h
    have first := le_add hs h.1
    obtain ⟨sum, rest⟩ := ih h.2 (zero_le_add hs h.1)
    exact ⟨le_of_le_of_le (isNaN_of_le hs) first.1 sum, List.forall_mem_cons.2
      ⟨le_of_le_of_le (isNaN_of_le h.1) first.2 sum, rest⟩⟩

/-! ## Quotients -/

theorem isFinite_of_isZero {s : Sign} {x : Float} (h : IsZero s x) : x.isFinite = true :=
  congrArg UnpackedFloat.isFinite h

theorem value_of_isZero {s : Sign} {x : Float} (h : IsZero s x) : value x = 0 :=
  congrArg valueOf h

theorem exists_isZero_div {x y : Float} (hx : x.isFinite = true) (hy : IsInfinite y) :
    ∃ s, IsZero s (x / y) := by
  have quotient {s : Sign} (h : UnpackedFloat.div .binary64 x.toModel.unpack y.toModel.unpack =
      .zero s) : IsZero s (x / y) :=
    (congrArg (fun a => (Float.Model.pack a).unpack) h).trans unpack_packedZero
  rw [hy] at quotient
  rcases exists_of_isFinite (a := x.toModel.unpack) hx with ⟨s, hu⟩ | ⟨s, m, e, hm, hu⟩
  · exact ⟨s / .positive, quotient (by rw [hu]; rfl)⟩
  · exact ⟨s / .positive, quotient (by rw [hu]; rfl)⟩

theorem isNaN_eq_false_of_lt {x y : Float} (h : x < y) : x.isNaN = false := by
  change decide (x.toModel.unpack.lt y.toModel.unpack = true) = true at h
  rw [decide_eq_true_iff, UnpackedFloat.lt] at h
  change x.toModel.unpack.isNaN = false
  cases hx : x.toModel.unpack with
  | notANumber =>
    rw [hx] at h
    cases h
  | _ => rfl

/-- A quotient by a positive number is not negative, even if it is no number at all. -/
theorem not_div_neg {x y : Float} (hx : 0.0 ≤ x) (hy : 0.0 < y) : ¬ x / y < 0.0 := by
  rcases nonneg_iff.1 hx with ⟨fx, vx⟩ | ix
  · rcases nonneg_iff.1 (nonneg_of_pos hy) with ⟨fy, vy⟩ | iy
    · have pos : 0 < value y := by rwa [lt_iff_value_lt isFinite_zero fy, value_zero] at hy
      exact not_neg_of_nonneg ((isRounded_div fx fy pos.ne').nonneg (div_nonneg vx vy))
    · obtain ⟨s, quotient⟩ := exists_isZero_div fx iy
      refine not_neg_of_nonneg (nonneg_iff.2 (.inl ⟨isFinite_of_isZero quotient, ?_⟩))
      rw [value_of_isZero quotient]
  · rcases pos_iff.1 hy with iy | ⟨m, e, hm, hu⟩
    · intro h
      have nan : (x / y).isNaN = true := by
        change (Float.Model.pack (UnpackedFloat.div .binary64 x.toModel.unpack
          y.toModel.unpack)).unpack.isNaN = true
        rw [ix, iy]
        exact congrArg UnpackedFloat.isNaN unpack_packedNaN
      exact absurd (nan.symm.trans (isNaN_eq_false_of_lt h)) nofun
    · refine not_neg_of_nonneg (nonneg_iff.2 (.inr (isInfinite_ofModel ?_)))
      rw [ix, hu]
      rfl

end Decimal

theorem total_nonneg {xs : List Float} (h : ∀ x ∈ xs, 0.0 ≤ x) : 0.0 ≤ total xs :=
  (Decimal.le_foldl_add h (by decide +kernel)).1

theorem le_total_of_mem {xs : List Float} (h : ∀ x ∈ xs, 0.0 ≤ x) {x : Float} (hx : x ∈ xs) :
    x ≤ total xs :=
  (Decimal.le_foldl_add h (by decide +kernel)).2 x hx

theorem not_ratio_neg {x : Float} (hx : 0.0 ≤ x) (y : Float) : ¬ ratio x y < 0.0 := by
  unfold ratio
  split
  · rename_i hy
    exact Decimal.not_div_neg hx hy
  · decide +kernel

end Worklog
