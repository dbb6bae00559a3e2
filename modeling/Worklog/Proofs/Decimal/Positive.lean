import Worklog.Proofs.Decimal.Zero

/-!
# Positive numbers

A product of two positive numbers may be rounded to zero, but not if one of them is at least one
(`mul_pos`). A whole number that is not above the days of a month is such a factor
(`isAtLeastOne_ofInt`). Sums of positive numbers are positive (`total_pos`), and zero leaves the
number that is added to it as it is (`zero_add_of_pos`).
-/

namespace Worklog

namespace Decimal

open Float.Model UnpackedFloat

/-- Whether a number is positive: infinite, or finite and not zero. -/
def IsPositive (a : UnpackedFloat) : Prop :=
  a = .infinity .positive ∨ ∃ m e h, a = .finite .positive m e h

theorem pos_iff {x : Float} : 0.0 < x ↔ IsPositive x.toModel.unpack := by
  have zero : (0.0 : Float).toModel.unpack = .zero .positive := isZero_zero
  change decide ((0.0 : Float).toModel.unpack.lt x.toModel.unpack = true) = true ↔ _
  rw [decide_eq_true_iff, zero]
  rcases x.toModel.unpack with ⟨_ | _⟩ | _ | _ | ⟨_ | _, m, e, h⟩ <;>
    simp [UnpackedFloat.lt, UnpackedFloat.compare, IsPositive]
  exact h

/-- Whether a number is at least one: its leading digit does not stand behind the point. -/
def isAtLeastOne : UnpackedFloat → Bool
  | .finite .positive m e _ => 0 ≤ m.log2 + e
  | .infinity .positive => true
  | _ => false

theorem log2_mul_ge {m n : Nat} (hm : 0 < m) (hn : 0 < n) : m.log2 + n.log2 ≤ (m * n).log2 := by
  rw [Nat.le_log2 (Nat.mul_pos hm hn).ne', Nat.pow_add]
  exact Nat.mul_le_mul (Nat.log2_self_le hm.ne') (Nat.log2_self_le hn.ne')

theorem isPositive_pack {a : UnpackedFloat} (fits : Fits a) (ha : IsPositive a) :
    IsPositive (Float.Model.pack a).unpack := by
  rcases ha with rfl | ⟨m, e, h, rfl⟩
  · exact .inl (unpack_packedInfinity .positive)
  · exact unpack_pack_finite fits

theorem isPositive_mul {a b : UnpackedFloat} (ha : isAtLeastOne a = true) (hb : IsPositive b)
    (fits : Fits b) :
    Fits (UnpackedFloat.mul .binary64 a b) ∧ IsPositive (UnpackedFloat.mul .binary64 a b) := by
  rcases a with ⟨_ | _⟩ | _ | _ | ⟨_ | _, m, e, hm⟩
  · cases ha
  · obtain rfl | ⟨n, f, hn, rfl⟩ := hb
    · exact ⟨trivial, .inl rfl⟩
    · exact ⟨trivial, .inl rfl⟩
  · cases ha
  · cases ha
  · cases ha
  · obtain rfl | ⟨n, f, hn, rfl⟩ := hb
    · exact ⟨trivial, .inl rfl⟩
    · -- The leading digit of the product stands no lower than that of the second factor.
      have one : 0 ≤ m.log2 + e := of_decide_eq_true ha
      have digits := log2_mul_ge hm hn
      have least := fits.2
      obtain ⟨m', e', h', hr, fits'⟩ := exists_roundWithAccuracy (Nat.mul_pos hm hn)
        (show -1074 ≤ ((m * n).log2 : Int) + (e + f) by omega) .positive .exact
      have product : UnpackedFloat.mul .binary64 (.finite .positive m e hm)
          (.finite .positive n f hn) = .finite .positive m' e' h' := hr
      rw [product]
      exact ⟨fits', .inr ⟨m', e', h', rfl⟩⟩

/-- A product is positive if one factor is and the other is at least one. -/
theorem mul_pos {x y : Float} (hx : isAtLeastOne x.toModel.unpack = true) (hy : 0.0 < y) :
    0.0 < x * y := by
  have product := isPositive_mul hx (pos_iff.1 hy) (fits_unpack y.toModel)
  exact pos_iff.2 (isPositive_pack product.1 product.2)

/-- A whole number that is not above the days of a month is at least one if it is positive. -/
theorem isAtLeastOne_ofInt {n : Nat} (low : 1 ≤ n) (high : n ≤ 31) :
    isAtLeastOne (ofInt n).toModel.unpack = true := by
  have all : ∀ n : Nat, n < 32 → 1 ≤ n → isAtLeastOne (ofInt n).toModel.unpack = true := by
    decide +kernel
  exact all n (by omega) low

/-! ## Sums -/

/-- What a number is stored as is the number. -/
theorem ofModel_pack_unpack (x : Float) : Float.ofModel (.pack x.toModel.unpack) = x := by
  rcases x with ⟨bits, valid⟩
  simp only [Float.Model.pack, Float.Model.unpack]
  congr 2
  exact congrArg UInt64.ofBitVec (pack_unpack_of_valid valid)

theorem zero_add_of_pos {x : Float} (h : 0.0 < x) : 0.0 + x = x := by
  have zero : (0.0 : Float).toModel.unpack = .zero .positive := isZero_zero
  have sum : 0.0 + x = .ofModel (.pack (UnpackedFloat.add .binary64 (0.0 : Float).toModel.unpack
    x.toModel.unpack)) := rfl
  rw [sum, zero]
  refine Eq.trans ?_ (ofModel_pack_unpack x)
  rcases pos_iff.1 h with hx | ⟨m, e, hm, hx⟩
  · rw [hx]
    rfl
  · rw [hx]
    rfl

theorem normalize_natCast {m : Nat} (hm : 0 < m) (e : Int) :
    UnpackedFloat.normalize .binary64 m e .positive =
      UnpackedFloat.round .binary64 .positive m e := by
  have sign : compare (m : Int) 0 = .gt := Int.compare_eq_gt.2 (by omega)
  rw [UnpackedFloat.normalize, sign]
  rfl

theorem isPositive_add {a b : UnpackedFloat} (ha : IsPositive a) (hb : IsPositive b)
    (fitsa : Fits a) (fitsb : Fits b) :
    Fits (UnpackedFloat.add .binary64 a b) ∧ IsPositive (UnpackedFloat.add .binary64 a b) := by
  rcases ha with rfl | ⟨m, e, hm, rfl⟩
  · rcases hb with rfl | ⟨n, f, hn, rfl⟩
    · exact ⟨trivial, .inl rfl⟩
    · exact ⟨trivial, .inl rfl⟩
  · rcases hb with rfl | ⟨n, f, hn, rfl⟩
    · exact ⟨trivial, .inl rfl⟩
    · have least : -1074 ≤ min e f := le_min fitsa.2 fitsb.2
      have nonzero (m : Nat) (e : Int) (hm : 0 < m) : 0 < (decreaseExponent m e (min e f)).1 := by
        simp only [decreaseExponent, Nat.shiftLeft_eq]
        positivity
      obtain ⟨m', e', h', hr, fits⟩ := exists_round
        (Nat.add_pos_left (nonzero m e hm) (decreaseExponent n f (min e f)).1) least .positive
      rw [← normalize_natCast (Nat.add_pos_left (nonzero m e hm) _), Nat.cast_add] at hr
      have sum : UnpackedFloat.add .binary64 (.finite .positive m e hm)
        (.finite .positive n f hn) = .finite .positive m' e' h' := hr
      rw [sum]
      exact ⟨fits, .inr ⟨m', e', h', rfl⟩⟩

theorem pos_add {x y : Float} (hx : 0.0 < x) (hy : 0.0 < y) : 0.0 < x + y := by
  have sum := isPositive_add (pos_iff.1 hx) (pos_iff.1 hy) (fits_unpack x.toModel)
    (fits_unpack y.toModel)
  exact pos_iff.2 (isPositive_pack sum.1 sum.2)

theorem pos_foldl_add {s : Float} {xs : List Float} (hs : 0.0 < s) (h : ∀ x ∈ xs, 0.0 < x) :
    0.0 < xs.foldl (· + ·) s := by
  induction xs generalizing s with
  | nil => exact hs
  | cons x xs ih =>
    obtain ⟨hx, h⟩ := List.forall_mem_cons.1 h
    exact ih (pos_add hs hx) h

end Decimal

theorem total_singleton {x : Float} (h : 0.0 < x) : total [x] = x :=
  Decimal.zero_add_of_pos h

theorem total_pos {xs : List Float} (ne : xs ≠ []) (h : ∀ x ∈ xs, 0.0 < x) : 0.0 < total xs := by
  cases xs with
  | nil => exact absurd rfl ne
  | cons x xs =>
    obtain ⟨hx, h⟩ := List.forall_mem_cons.1 h
    rw [total, List.foldl_cons, Decimal.zero_add_of_pos hx]
    exact Decimal.pos_foldl_add hx h

end Worklog
