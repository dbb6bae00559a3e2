import Worklog.Figures
import Worklog.Proofs.Decimal.Order
import Worklog.Proofs.Decimal.Rounding

/-!
# Sums and the two zeros

Numbers are alike if they are the same or both zeros, which is to say that they have the same rank
(`alike_iff_rank_eq`). Products of alike numbers are alike (`Alike.mul`), and sums do not tell them
apart: a sum that starts at zero never becomes a negative zero, so it is the same whichever zeros
are added (`total_congr`).
-/

namespace Worklog

namespace Decimal

open Float.Model UnpackedFloat

/-- Whether a number is the zero of the given sign. -/
def IsZero (s : Sign) (x : Float) : Prop :=
  x.toModel.unpack = .zero s

/-- Whether two numbers are the same or both zeros. -/
def Alike (x y : Float) : Prop :=
  x = y ∨ ∃ s s', IsZero s x ∧ IsZero s' y

theorem isZero_iff {s : Sign} {x : Float} :
    IsZero s x ↔ x.toModel.toBits.toBitVec = packedZero .binary64 s :=
  unpack_eq_zero_iff_of_valid x.toModel.valid

theorem rank_of_isZero {s : Sign} {x : Float} (h : IsZero s x) :
    rank x = toLex (0, toLex (0, 0)) := by
  rw [rank, h]
  rfl

theorem isZero_zero : IsZero .positive 0.0 :=
  isZero_iff.2 (by decide +kernel)

theorem beq_zero_of_isZero {s : Sign} {x : Float} (h : IsZero s x) : (x == 0.0) = true := by
  have number : x.isNaN = false := by
    change x.toModel.unpack.isNaN = false
    rw [h]
    rfl
  rw [beq_iff_rank_eq number (by decide +kernel), rank_of_isZero h, rank_of_isZero isZero_zero]

theorem alike_iff_rank_eq {x y : Float} (hx : x.isNaN = false) (hy : y.isNaN = false) :
    Alike x y ↔ rank x = rank y := by
  have positive : IsZero .positive 0 := isZero_iff.2 (by decide +kernel)
  have negative : IsZero .negative (-0) := isZero_iff.2 (by decide +kernel)
  constructor
  · rintro (rfl | ⟨_, _, hx, hy⟩)
    · rfl
    · rw [rank_of_isZero hx, rank_of_isZero hy]
  · intro h
    obtain ⟨-, -, same | ⟨rfl, rfl⟩ | ⟨rfl, rfl⟩⟩ :=
      Float.beq_iff_ne_nan_and_eq.1 ((beq_iff_rank_eq hx hy).2 h)
    · exact .inl same
    · exact .inr ⟨_, _, positive, negative⟩
    · exact .inr ⟨_, _, negative, positive⟩

/-! ## Products -/

theorem Alike.mul {x y : Float} (h : Alike x y) (r : Float) : Alike (x * r) (y * r) := by
  rcases h with rfl | ⟨s, s', hx, hy⟩
  · exact .inl rfl
  have product (z : Float) : z * r = .ofModel (.pack (UnpackedFloat.mul .binary64 z.toModel.unpack
    r.toModel.unpack)) := rfl
  rw [product, product, hx, hy]
  rcases r.toModel.unpack with _ | _ | sign | ⟨sign, _, _, _⟩
  · exact .inl rfl
  · exact .inl rfl
  · exact .inr ⟨s * sign, s' * sign, unpack_packedZero, unpack_packedZero⟩
  · exact .inr ⟨s * sign, s' * sign, unpack_packedZero, unpack_packedZero⟩

/-! ## Sums -/

theorem not_isZero_negative_add {s x : Float} (hs : ¬ IsZero .negative s) :
    ¬ IsZero .negative (s + x) :=
  have sum := fits_add (fits_unpack s.toModel) (fits_unpack x.toModel) hs
  unpack_pack_ne_negZero sum.1 sum.2

theorem add_isZero {s x : Float} {sign : Sign} (hs : ¬ IsZero .negative s) (hx : IsZero sign x) :
    s + x = .ofModel (.pack s.toModel.unpack) := by
  have h : s + x = .ofModel (.pack (UnpackedFloat.add .binary64 s.toModel.unpack
    x.toModel.unpack)) := rfl
  rw [h, hx]
  rcases hu : s.toModel.unpack with _ | _ | ⟨_ | _⟩ | _
  · rfl
  · rfl
  · exact absurd hu hs
  · cases sign <;> rfl
  · rfl

theorem add_congr {s x y : Float} (hs : ¬ IsZero .negative s) (h : Alike x y) : s + x = s + y := by
  rcases h with rfl | ⟨_, _, hx, hy⟩
  · rfl
  · rw [add_isZero hs hx, add_isZero hs hy]

theorem foldl_add_congr {xs ys : List Float} (h : List.Forall₂ Alike xs ys) {s : Float}
    (hs : ¬ IsZero .negative s) : xs.foldl (· + ·) s = ys.foldl (· + ·) s := by
  induction h generalizing s with
  | nil => rfl
  | cons hxy _ ih =>
    rw [List.foldl_cons, List.foldl_cons, ← add_congr hs hxy]
    exact ih (not_isZero_negative_add hs)

end Decimal

/-- A total does not tell alike numbers apart. -/
theorem total_congr {xs ys : List Float} (h : List.Forall₂ Decimal.Alike xs ys) :
    total xs = total ys :=
  Decimal.foldl_add_congr h (mt Decimal.isZero_iff.1 (by decide +kernel))

end Worklog
