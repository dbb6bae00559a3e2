import Worklog.Proofs.Decimal.Value

/-!
# Arithmetic of binary64 numbers

The sum, the difference, the product and the quotient of finite numbers is the exact result
rounded, or infinite if that is too large (`isRounded_add`, `isRounded_sub`, `isRounded_mul`,
`isRounded_div`). An operation does not keep all digits of that result: of those that there is no
room for, it only knows what decides about rounding (`Represents`). Rounding what it knows is
rounding the exact result (`rounds_roundWithAccuracy`).
-/

namespace Worklog.Decimal

open Float.Model UnpackedFloat

/-! ## Digits and what follows them -/

/--
Whether digits stand for a number: of the digits after them it is known what the first one is and
whether there are others.
-/
def Represents (em : ExtendedMantissa) (q : ℚ) : Prop :=
  ∃ t : ℚ, 0 ≤ t ∧ t < 1 ∧ (em.stickyBit = true ↔ t ≠ 0) ∧
    q = em.mantissa + (em.roundBit.toNat + t) / 2

theorem Represents.shiftRightOne {em : ExtendedMantissa} {q : ℚ} (h : Represents em q) :
    Represents em.shiftRightOne (q / 2) := by
  obtain ⟨t, low, high, others, rfl⟩ := h
  have digit : (em.roundBit.toNat : ℚ) ≤ 1 := by exact_mod_cast Bool.toNat_le em.roundBit
  refine ⟨(em.roundBit.toNat + t) / 2, by positivity, by linarith, ?_, ?_⟩
  · have : em.roundBit.toNat + t = 0 ↔ em.roundBit = false ∧ t = 0 := by
      rw [add_eq_zero_iff_of_nonneg (by positivity) low, Nat.cast_eq_zero, Bool.toNat_eq_zero]
    rw [ExtendedMantissa.shiftRightOne, Bool.or_eq_true, others, ne_eq, ne_eq,
      div_eq_zero_iff, or_iff_left two_ne_zero, this, not_and_or, Bool.not_eq_false]
  · have split : em.mantissa = 2 * (em.mantissa / 2) + (em.mantissa % 2 != 0).toNat := by
      have := Nat.mod_two_eq_zero_or_one em.mantissa
      rcases this with even | odd
      · simp [even]
        omega
      · simp [odd]
        omega
    have : (em.mantissa : ℚ) = 2 * (em.mantissa / 2 : ℕ) + (em.mantissa % 2 != 0).toNat := by
      exact_mod_cast split
    simp only [ExtendedMantissa.shiftRightOne]
    rw [this]
    ring

theorem Represents.shiftRight {em : ExtendedMantissa} {q : ℚ} (h : Represents em q) (k : ℕ) :
    Represents (em >>> k) (q / 2 ^ k) := by
  induction k with
  | zero => simpa [HShiftRight.hShiftRight, Nat.repeat] using h
  | succ k ih =>
    rw [pow_succ, ← div_div]
    exact ih.shiftRightOne

theorem Represents.floor_eq {em : ExtendedMantissa} {q : ℚ} (h : Represents em q) :
    ⌊q⌋ = em.mantissa := by
  obtain ⟨t, low, high, -, rfl⟩ := h
  have digit : (em.roundBit.toNat : ℚ) ≤ 1 := by exact_mod_cast Bool.toNat_le em.roundBit
  rw [Int.floor_eq_iff, Int.cast_natCast]
  constructor
  · have : (0 : ℚ) ≤ (em.roundBit.toNat + t) / 2 := by positivity
    linarith
  · linarith

/-- The digits are rounded as the number that they stand for is. -/
theorem Represents.roundedMantissa {em : ExtendedMantissa} {q : ℚ} (h : Represents em q) :
    (em.roundedMantissa : ℤ) = roundEven q := by
  obtain ⟨t, low, high, others, hq⟩ := h
  have floor := floor_eq ⟨t, low, high, others, hq⟩
  have fract : 2 * Int.fract q = em.roundBit.toNat + t := by
    rw [Int.fract, floor, hq, Int.cast_natCast]
    ring
  rw [roundEven, fract, floor]
  rcases em with ⟨m, _ | _, _ | _⟩
  all_goals
    simp only [Bool.false_eq_true, false_iff, not_not, true_iff, ne_eq] at others
    simp only [ExtendedMantissa.roundedMantissa, ExtendedMantissa.accuracy,
      Accuracy.roundToNearestEven, Bool.toNat_false, Bool.toNat_true, Nat.cast_zero, Nat.cast_one]
  · rw [if_pos (by linarith)]
  · rw [if_pos (by linarith)]
  · rw [if_neg (by linarith), if_neg (by linarith)]
    push_cast
    rfl
  · have : 0 < t := low.lt_of_ne' others
    rw [if_neg (by linarith), if_pos (by linarith)]
    push_cast
    rfl

theorem represents_exact (m : ℕ) :
    Represents (ExtendedMantissa.ofMantissaAndAccuracy m .exact) m :=
  ⟨0, le_rfl, one_pos, by simp [ExtendedMantissa.ofMantissaAndAccuracy],
    by simp [ExtendedMantissa.ofMantissaAndAccuracy]⟩

theorem represents_fraction (m : ℕ) {n d : ℕ} (h : n < d) :
    Represents (ExtendedMantissa.ofMantissaAndAccuracy m (accuracyOfFraction n d))
      (m + n / d) := by
  have pos : (0 : ℚ) < d := by exact_mod_cast h.pos
  have below : (n : ℚ) < d := by exact_mod_cast h
  unfold accuracyOfFraction
  split
  · rename_i zero
    rw [zero, Nat.cast_zero, zero_div, add_zero]
    exact represents_exact m
  · rename_i nonzero
    have pos' : (0 : ℚ) < n := by exact_mod_cast Nat.pos_of_ne_zero nonzero
    rcases hc : compare (2 * n) d with _ | _ | _
    · have : (2 * n : ℚ) < d := by exact_mod_cast Nat.compare_eq_lt.1 hc
      refine ⟨2 * n / d, by positivity, (div_lt_one pos).2 this, ?_, ?_⟩
      · simp [ExtendedMantissa.ofMantissaAndAccuracy, pos'.ne', pos.ne']
      · simp [ExtendedMantissa.ofMantissaAndAccuracy]
        ring
    · have : (2 * n : ℚ) = d := by exact_mod_cast Nat.compare_eq_eq.1 hc
      refine ⟨0, le_rfl, one_pos, ?_, ?_⟩
      · simp [ExtendedMantissa.ofMantissaAndAccuracy]
      · simp [ExtendedMantissa.ofMantissaAndAccuracy]
        rw [← this]
        field_simp
    · have : (d : ℚ) < 2 * n := by exact_mod_cast Nat.compare_eq_gt.1 hc
      refine ⟨(2 * n - d) / d, div_nonneg (by linarith) pos.le, ?_, ?_, ?_⟩
      · rw [div_lt_one pos]
        linarith
      · have : (2 * n - d : ℚ) / d ≠ 0 := div_ne_zero (by linarith) pos.ne'
        simp [ExtendedMantissa.ofMantissaAndAccuracy, this]
      · simp [ExtendedMantissa.ofMantissaAndAccuracy]
        field_simp
        ring

/-! ## Rounding -/

/-- What an operation returns before it is stored: a finite number, the exact result rounded. -/
structure Rounds (a : UnpackedFloat) (q : ℚ) : Prop where
  canonical : Canonical a
  isFinite : a.isFinite = true
  valueOf_eq : valueOf a = rounded q

theorem log_eq_log2 {m : ℕ} {q : ℚ} (floor : ⌊q⌋ = m) (hm : m ≠ 0) : Int.log 2 q = m.log2 := by
  obtain ⟨low, high⟩ := Int.floor_eq_iff.1 floor
  rw [Int.cast_natCast] at low high
  have pos : 0 < q := lt_of_lt_of_le (by exact_mod_cast Nat.pos_of_ne_zero hm) low
  refine le_antisymm (Int.lt_add_one_iff.1 ?_) ?_
  · rw [← lt_zpow_iff pos]
    have : (m : ℚ) + 1 ≤ 2 ^ (m.log2 + 1) := by exact_mod_cast Nat.lt_log2_self
    exact_mod_cast high.trans_le this
  · rw [← zpow_le_iff pos, zpow_natCast]
    have : (2 : ℚ) ^ m.log2 ≤ m := by exact_mod_cast Nat.log2_self_le hm
    exact this.trans low

/-- The place up to which digits are dropped is the last one that there is room for. -/
theorem targetExponent_eq_lastPlace {m : ℕ} {q : ℚ} {e : ℤ} (floor : ⌊q⌋ = m) (pos : 0 < q)
    (he : e ≤ lastPlace (q * 2 ^ e)) :
    Format.binary64.targetExponent (totalExponent m e) = lastPlace (q * 2 ^ e) := by
  have log := log_mul_zpow pos e
  rw [targetExponent_totalExponent]
  rw [lastPlace, abs_of_pos (by positivity), log] at he ⊢
  rcases eq_or_ne m 0 with rfl | hm
  · -- Nothing stands above the place `e`, so there are only digits below the least place.
    have : Int.log 2 q < 0 := by
      rw [← lt_zpow_iff pos, zpow_zero]
      exact_mod_cast Int.floor_lt.1 (floor.trans_lt (by decide : ((0 : ℕ) : ℤ) < 1))
    rw [Nat.log2_zero]
    omega
  · rw [log_eq_log2 floor hm]

/-- The first shift keeps the digits up to the last place, and what there is to know of the rest. -/
theorem shift_roundedMantissa {m : ℕ} {a : Accuracy} {q : ℚ} {e : ℤ}
    (h : Represents (ExtendedMantissa.ofMantissaAndAccuracy m a) q) (pos : 0 < q)
    (he : e ≤ lastPlace (q * 2 ^ e)) :
    (shiftToTargetExponent .binary64 m e a).2 = lastPlace (q * 2 ^ e) ∧
      ((shiftToTargetExponent .binary64 m e a).1.roundedMantissa : ℤ) =
        roundEven (q * 2 ^ e / 2 ^ lastPlace (q * 2 ^ e)) := by
  have floor : ⌊q⌋ = m := by rw [h.floor_eq, mantissa_ofMantissaAndAccuracy]
  rw [shiftToTargetExponent, targetExponent_eq_lastPlace floor pos he, shiftToExponent]
  generalize lastPlace (q * 2 ^ e) = p at he
  have place : (e + (p - e).toNat : ℤ) = p := by omega
  have scale : q / 2 ^ (p - e).toNat = q * 2 ^ e / 2 ^ p := by
    rw [← zpow_natCast, ← place, zpow_add₀ two_ne_zero, place, mul_comm (2 ^ e : ℚ),
      mul_div_mul_right _ _ (by positivity)]
  exact ⟨place, scale ▸ (h.shiftRight (p - e).toNat).roundedMantissa⟩

/-- The second shift drops the digit that rounding may have added, which is a zero. -/
theorem shift_exact {r : ℕ} {p : ℤ} (small : r ≤ 2 ^ 53) (least : -1074 ≤ p)
    (full : 2 ^ 52 ≤ r ∨ p = -1074) :
    let shifted := shiftToTargetExponent .binary64 r p .exact
    (shifted.1.mantissa : ℚ) * 2 ^ shifted.2 = r * 2 ^ p ∧ shifted.1.mantissa < 2 ^ 53 ∧
      -1074 ≤ shifted.2 ∧ (2 ^ 52 ≤ shifted.1.mantissa ∨ shifted.2 = -1074) := by
  rw [shiftToTargetExponent, targetExponent_totalExponent, shiftToExponent]
  simp only [mantissa_shiftRight, mantissa_ofMantissaAndAccuracy]
  rcases small.lt_or_eq with below | rfl
  · have digits : r.log2 ≤ 52 := by
      rcases eq_or_ne r 0 with rfl | hr
      · decide
      · exact Nat.lt_succ_iff.1 ((Nat.log2_lt hr).2 below)
    have room : (max ((r.log2 : ℤ) + p - 52) (-1074) - p).toNat = 0 := by omega
    rw [room, pow_zero, Nat.div_one, Nat.cast_zero, add_zero]
    exact ⟨rfl, below, least, full⟩
  · have one : (max (((2 ^ 53 : ℕ).log2 : ℤ) + p - 52) (-1074) - p).toNat = 1 := by
      rw [Nat.log2_two_pow]
      omega
    rw [one, Nat.cast_one, zpow_add_one₀ two_ne_zero]
    refine ⟨?_, by decide, by omega, .inl (by decide)⟩
    push_cast
    ring

theorem valueOf_finite (s : Sign) (m : ℕ) (e : ℤ) (h : 0 < m) :
    valueOf (.finite s m e h) = s.apply 1 * (m * 2 ^ e) := by
  cases s
  · rw [valueOf_negative]
    simp [Sign.apply]
  · rw [valueOf_positive]
    simp [Sign.apply]

theorem rounded_apply (s : Sign) (q : ℚ) :
    rounded (s.apply 1 * q) = s.apply 1 * rounded q := by
  cases s
  · simp [Sign.apply, rounded_neg]
  · simp [Sign.apply]

/-- Rounding digits and what is known of the rest is rounding the number that they stand for. -/
theorem rounds_roundWithAccuracy (s : Sign) {m : ℕ} {a : Accuracy} {q : ℚ} {e : ℤ}
    (h : Represents (ExtendedMantissa.ofMantissaAndAccuracy m a) q) (pos : 0 < q)
    (he : e ≤ lastPlace (q * 2 ^ e)) :
    Rounds (roundWithAccuracy .binary64 s m e a) (s.apply 1 * (q * 2 ^ e)) := by
  obtain ⟨place, digits⟩ := shift_roundedMantissa h pos he
  have size : |q * 2 ^ e| = q * 2 ^ e := abs_of_pos (by positivity)
  have small := roundEven_digits_le (q * 2 ^ e)
  have full := le_roundEven_digits (show q * 2 ^ e ≠ 0 by positivity)
  rw [size, ← digits] at small full
  have result : ((shiftToTargetExponent .binary64 m e a).1.roundedMantissa : ℚ) *
      2 ^ lastPlace (q * 2 ^ e) = rounded (q * 2 ^ e) := by
    rw [rounded, ← digits, Int.cast_natCast]
  have shifted := shift_exact (by exact_mod_cast small) (least_le_lastPlace (q * 2 ^ e))
    (full.imp_left (by exact_mod_cast ·))
  rw [result] at shifted
  obtain ⟨result, canonical⟩ := shifted
  simp only [roundWithAccuracy, place]
  split
  · rename_i zero
    refine ⟨trivial, rfl, ?_⟩
    rw [rounded_apply, ← result, zero, Nat.cast_zero, zero_mul, mul_zero]
    rfl
  · refine ⟨canonical, rfl, ?_⟩
    rw [rounded_apply, ← result, valueOf_finite]

theorem rounds_round (s : Sign) {m : ℕ} (hm : 0 < m) (e : ℤ) :
    Rounds (UnpackedFloat.round .binary64 s m e) (s.apply 1 * (m * 2 ^ e)) := by
  have place : Format.binary64.targetExponent (totalExponent m e) =
      lastPlace ((m : ℚ) * 2 ^ e) := by
    rw [targetExponent_totalExponent, lastPlace, abs_of_pos (by positivity),
      log_mul_zpow (by exact_mod_cast hm), Int.log_natCast, Nat.log2_eq_log_two]
  simp only [UnpackedFloat.round, decreaseExponent, place, Nat.shiftLeft_eq]
  generalize hk : (e - lastPlace ((m : ℚ) * 2 ^ e)).toNat = k
  have widened : ((m * 2 ^ k : ℕ) : ℚ) * 2 ^ (e - k) = m * 2 ^ e := by
    rw [zpow_sub₀ two_ne_zero, zpow_natCast]
    push_cast
    field_simp
  rw [← widened]
  refine rounds_roundWithAccuracy s (represents_exact _) (by positivity) ?_
  rw [widened]
  omega

theorem rounds_zero (s : Sign) : Rounds (.zero s) 0 :=
  ⟨trivial, rfl, rounded_zero.symm⟩

theorem rounds_self {a : UnpackedFloat} (hc : Canonical a) (hf : a.isFinite = true) :
    Rounds a (valueOf a) :=
  ⟨hc, hf, (rounded_of_onGrid (onGrid_valueOf hc)).symm⟩

theorem rounds_normalize (m e : ℤ) :
    Rounds (UnpackedFloat.normalize .binary64 m e .positive) (m * 2 ^ e) := by
  unfold UnpackedFloat.normalize
  split
  · rename_i h
    have neg := Int.compare_eq_lt.1 h
    have := rounds_round .negative (m := (-m).toNat) (by omega) e
    rwa [← Int.cast_natCast, Int.toNat_of_nonneg (by omega), Sign.apply, Int.cast_neg,
      Int.cast_neg, Int.cast_one, neg_mul, neg_mul, one_mul, neg_neg] at this
  · rename_i h
    rw [Int.compare_eq_eq.1 h, Int.cast_zero, zero_mul]
    exact rounds_zero .positive
  · rename_i h
    have pos := Int.compare_eq_gt.1 h
    have := rounds_round .positive (m := m.toNat) (by omega) e
    rwa [← Int.cast_natCast, Int.toNat_of_nonneg (by omega), Sign.apply, Int.cast_one,
      one_mul] at this

/-! ## Operations -/

theorem apply_decreaseExponent (s : Sign) (m : ℕ) {e p : ℤ} (h : p ≤ e) :
    ((s.apply (decreaseExponent m e p).1 : ℤ) : ℚ) * 2 ^ p = s.apply m * 2 ^ e := by
  have split : (2 : ℚ) ^ e = 2 ^ (e - p).toNat * 2 ^ p := by
    rw [← zpow_natCast, ← zpow_add₀ two_ne_zero]
    congr 1
    omega
  rw [split, decreaseExponent, Nat.shiftLeft_eq]
  cases s
  · simp only [Sign.apply]
    push_cast
    ring
  · simp only [Sign.apply]
    push_cast
    ring

theorem rounds_add {a b : UnpackedFloat} (ha : Canonical a) (hb : Canonical b)
    (fa : a.isFinite = true) (fb : b.isFinite = true) :
    Rounds (UnpackedFloat.add .binary64 a b) (valueOf a + valueOf b) := by
  rcases exists_of_isFinite fa with ⟨s, rfl⟩ | ⟨s, m, e, hm, rfl⟩
  · rw [valueOf_zero, zero_add]
    rcases exists_of_isFinite fb with ⟨s', rfl⟩ | ⟨s', m', e', hm', rfl⟩
    · simp only [UnpackedFloat.add]
      split
      · exact rounds_zero s
      · exact rounds_zero .positive
    · exact rounds_self hb rfl
  · rcases exists_of_isFinite fb with ⟨s', rfl⟩ | ⟨s', m', e', hm', rfl⟩
    · rw [valueOf_zero, add_zero]
      exact rounds_self ha rfl
    · have sum := rounds_normalize (s.apply (decreaseExponent m e (min e e')).1 +
        s'.apply (decreaseExponent m' e' (min e e')).1) (min e e')
      rw [Int.cast_add, add_mul, apply_decreaseExponent s m (min_le_left ..),
        apply_decreaseExponent s' m' (min_le_right ..)] at sum
      exact sum

theorem rounds_neg_finite {s : Sign} {m : ℕ} {e : ℤ} {h : 0 < m}
    (hc : Canonical (.finite s m e h)) :
    Rounds (.finite (-s) m e h) (-valueOf (.finite s m e h)) := by
  have opposite : valueOf (.finite (-s) m e h) = -valueOf (.finite s m e h) := by
    have unit : (-s).apply 1 = -s.apply 1 := by cases s <;> rfl
    rw [valueOf_finite, valueOf_finite, unit, Int.cast_neg, neg_mul]
  rw [← opposite]
  exact rounds_self hc rfl

theorem rounds_sub {a b : UnpackedFloat} (ha : Canonical a) (hb : Canonical b)
    (fa : a.isFinite = true) (fb : b.isFinite = true) :
    Rounds (UnpackedFloat.sub .binary64 a b) (valueOf a - valueOf b) := by
  rcases exists_of_isFinite fa with ⟨s, rfl⟩ | ⟨s, m, e, hm, rfl⟩
  · rw [valueOf_zero, zero_sub]
    rcases exists_of_isFinite fb with ⟨s', rfl⟩ | ⟨s', m', e', hm', rfl⟩
    · rw [valueOf_zero, neg_zero]
      simp only [UnpackedFloat.sub]
      split
      · exact rounds_zero s
      · exact rounds_zero .positive
    · exact rounds_neg_finite hb
  · rcases exists_of_isFinite fb with ⟨s', rfl⟩ | ⟨s', m', e', hm', rfl⟩
    · rw [valueOf_zero, sub_zero]
      exact rounds_self ha rfl
    · have difference := rounds_normalize (s.apply (decreaseExponent m e (min e e')).1 -
        s'.apply (decreaseExponent m' e' (min e e')).1) (min e e')
      rw [Int.cast_sub, sub_mul, apply_decreaseExponent s m (min_le_left ..),
        apply_decreaseExponent s' m' (min_le_right ..)] at difference
      exact difference

theorem apply_mul (s s' : Sign) : (s * s').apply 1 = s.apply 1 * s'.apply 1 := by
  cases s <;> cases s' <;> rfl

theorem apply_div (s s' : Sign) : (s / s').apply 1 = s.apply 1 * s'.apply 1 := by
  cases s <;> cases s' <;> rfl

/-- A product of numbers with all their digits has digits enough; others have no room for more. -/
theorem place_mul_le {s s' : Sign} {m m' : ℕ} {e e' : ℤ} {h : 0 < m} {h' : 0 < m'}
    (hc : Canonical (.finite s m e h)) (hc' : Canonical (.finite s' m' e' h')) :
    e + e' ≤ lastPlace (((m * m' : ℕ) : ℚ) * 2 ^ (e + e')) := by
  have digits := log2_mul_ge h h'
  have pos : 0 < m * m' := Nat.mul_pos h h'
  rw [lastPlace, abs_of_pos (by positivity), log_mul_zpow (by exact_mod_cast pos),
    Int.log_natCast, ← Nat.log2_eq_log_two]
  rcases hc.2.2 with full | least
  · have : 52 ≤ m.log2 := (Nat.le_log2 h.ne').2 full
    omega
  · rcases hc'.2.2 with full | least'
    · have : 52 ≤ m'.log2 := (Nat.le_log2 h'.ne').2 full
      omega
    · omega

theorem rounds_mul {a b : UnpackedFloat} (ha : Canonical a) (hb : Canonical b)
    (fa : a.isFinite = true) (fb : b.isFinite = true) :
    Rounds (UnpackedFloat.mul .binary64 a b) (valueOf a * valueOf b) := by
  rcases exists_of_isFinite fa with ⟨s, rfl⟩ | ⟨s, m, e, hm, rfl⟩
  · rw [valueOf_zero, zero_mul]
    rcases exists_of_isFinite fb with ⟨s', rfl⟩ | ⟨s', m', e', hm', rfl⟩
    · exact rounds_zero _
    · exact rounds_zero _
  · rcases exists_of_isFinite fb with ⟨s', rfl⟩ | ⟨s', m', e', hm', rfl⟩
    · rw [valueOf_zero, mul_zero]
      exact rounds_zero _
    · have product : valueOf (.finite s m e hm) * valueOf (.finite s' m' e' hm') =
          (s * s').apply 1 * (((m * m' : ℕ) : ℚ) * 2 ^ (e + e')) := by
        rw [valueOf_finite, valueOf_finite, apply_mul, zpow_add₀ two_ne_zero]
        push_cast
        ring
      rw [product]
      have pos : 0 < m * m' := Nat.mul_pos hm hm'
      exact rounds_roundWithAccuracy _ (represents_exact _) (by exact_mod_cast pos)
        (place_mul_le ha hb)

/-- A quotient has its leading digit where those of its terms stand, or one place below. -/
theorem log2_sub_le_log_div {m m' : ℕ} (h : 0 < m) (h' : 0 < m') (e : ℤ) :
    (m.log2 : ℤ) - m'.log2 - 1 + e ≤ Int.log 2 ((m : ℚ) / m' * 2 ^ e) := by
  have low : (2 : ℚ) ^ m.log2 ≤ m := by exact_mod_cast Nat.log2_self_le h.ne'
  have high : (m' : ℚ) ≤ 2 ^ (m'.log2 + 1) := by exact_mod_cast Nat.lt_log2_self.le
  rw [log_mul_zpow (by positivity), add_le_add_iff_right, ← zpow_le_iff (by positivity),
    le_div_iff₀ (by positivity)]
  calc
    (2 : ℚ) ^ ((m.log2 : ℤ) - m'.log2 - 1) * m'
      ≤ 2 ^ ((m.log2 : ℤ) - m'.log2 - 1) * 2 ^ (m'.log2 + 1) :=
        mul_le_mul_of_nonneg_left high (by positivity)
    _ = 2 ^ m.log2 := by
      rw [← zpow_natCast, ← zpow_natCast, ← zpow_add₀ two_ne_zero]
      congr 1
      push_cast
      ring
    _ ≤ m := low

theorem rounds_divCore (s : Sign) {m m' : ℕ} (h : 0 < m) (h' : 0 < m') (e e' : ℤ) :
    Rounds (let (n, p, a) := divCore .binary64 m e m' e'; roundWithAccuracy .binary64 s n p a)
      (s.apply 1 * (m / m' * 2 ^ (e - e'))) := by
  simp only [divCore, Nat.shiftLeft_eq]
  generalize hp : min (e - e') (Format.binary64.targetExponent
    (totalExponent m e - totalExponent m' e')) = p
  have low : p ≤ e - e' := hp ▸ min_le_left ..
  generalize hk : (e - e' - p).toNat = k
  have quotient : ((m * 2 ^ k / m' : ℕ) + (m * 2 ^ k % m' : ℕ) / (m' : ℚ)) * 2 ^ p =
      m / m' * 2 ^ (e - e') := by
    have split : (e - e' : ℤ) = k + p := by omega
    have division : ((m * 2 ^ k : ℕ) : ℚ) = m' * (m * 2 ^ k / m' : ℕ) + (m * 2 ^ k % m' : ℕ) := by
      exact_mod_cast (Nat.div_add_mod ..).symm
    rw [split, zpow_add₀ two_ne_zero, zpow_natCast]
    push_cast at division ⊢
    field_simp
    linarith
  rw [← quotient]
  refine rounds_roundWithAccuracy s (represents_fraction _ (Nat.mod_lt _ h')) ?_ ?_
  · refine (mul_pos_iff_of_pos_right (show (0 : ℚ) < 2 ^ p by positivity)).1 ?_
    rw [quotient]
    positivity
  · have digits := log2_sub_le_log_div h h' (e - e')
    rw [quotient, lastPlace, abs_of_pos (by positivity), ← hp]
    refine (min_le_right ..).trans (max_le_max_right _ ?_)
    simp only [totalExponent, Format.mantissaBits]
    push_cast
    omega

theorem rounds_div {a b : UnpackedFloat} (fa : a.isFinite = true) (fb : b.isFinite = true)
    (nonzero : valueOf b ≠ 0) :
    Rounds (UnpackedFloat.div .binary64 a b) (valueOf a / valueOf b) := by
  rcases exists_of_isFinite fb with ⟨s', rfl⟩ | ⟨s', m', e', hm', rfl⟩
  · exact absurd rfl nonzero
  · rcases exists_of_isFinite fa with ⟨s, rfl⟩ | ⟨s, m, e, hm, rfl⟩
    · rw [valueOf_zero, zero_div]
      exact rounds_zero _
    · have quotient : valueOf (.finite s m e hm) / valueOf (.finite s' m' e' hm') =
          (s / s').apply 1 * (m / m' * 2 ^ (e - e')) := by
        have unit : ((s'.apply 1 : ℤ) : ℚ)⁻¹ = s'.apply 1 := by
          cases s' <;> norm_num [Sign.apply]
        rw [valueOf_finite, valueOf_finite, apply_div, zpow_sub₀ two_ne_zero, mul_div_mul_comm,
          div_eq_mul_inv ((s.apply 1 : ℤ) : ℚ), unit, mul_div_mul_comm, Int.cast_mul]
      rw [quotient]
      exact rounds_divCore _ hm hm' e e'

/-! ## Results -/

/--
Whether a number is an exact result as the format has it: rounded, and infinite if that is beyond
the overflow threshold.
-/
structure IsRounded (x : Float) (q : ℚ) : Prop where
  finite : |rounded q| < 2 ^ 1024 → x.isFinite = true ∧ value x = rounded q
  above : 2 ^ 1024 ≤ rounded q → x.toModel.unpack = .infinity .positive
  below : rounded q ≤ -2 ^ 1024 → x.toModel.unpack = .infinity .negative

theorem Rounds.isRounded {a : UnpackedFloat} {q : ℚ} (h : Rounds a q) :
    IsRounded (.ofModel (.pack a)) q := by
  obtain ⟨canonical, finite, hq⟩ := h
  refine ⟨fun small => ?_, fun large => ?_, fun large => ?_⟩
  · have kept := unpack_pack_of_lt canonical finite (hq ▸ small)
    refine ⟨?_, ?_⟩
    · change (Float.Model.pack a).unpack.isFinite = true
      rw [kept, finite]
    · change valueOf (Float.Model.pack a).unpack = _
      rw [kept, hq]
  · have pos : (0 : ℚ) < rounded q := lt_of_lt_of_le (by positivity) large
    exact (unpack_pack_of_le canonical (by rwa [hq, abs_of_pos pos])).1 (hq ▸ pos)
  · have neg : rounded q < 0 := large.trans_lt (neg_lt_zero.2 (by positivity))
    refine (unpack_pack_of_le canonical ?_).2 (hq ▸ neg)
    rw [hq, abs_of_neg neg]
    exact le_neg_of_le_neg large

/-- A finite result is the exact one rounded. -/
theorem IsRounded.value_eq {x : Float} {q : ℚ} (h : IsRounded x q) (hx : x.isFinite = true) :
    value x = rounded q := by
  have infinite {s : Sign} (hu : x.toModel.unpack = .infinity s) : False :=
    absurd ((congrArg UnpackedFloat.isFinite hu).symm.trans hx) nofun
  rcases lt_or_ge |rounded q| (2 ^ 1024) with small | large
  · exact (h.finite small).2
  · rcases le_abs'.1 large with below | above
    · exact (infinite (h.below below)).elim
    · exact (infinite (h.above above)).elim

section Operations

variable {x y : Float} (hx : x.isFinite = true) (hy : y.isFinite = true)

include hx hy

theorem isRounded_add : IsRounded (x + y) (value x + value y) :=
  (rounds_add (canonical_unpack _) (canonical_unpack _) hx hy).isRounded

theorem isRounded_sub : IsRounded (x - y) (value x - value y) :=
  (rounds_sub (canonical_unpack _) (canonical_unpack _) hx hy).isRounded

theorem isRounded_mul : IsRounded (x * y) (value x * value y) :=
  (rounds_mul (canonical_unpack _) (canonical_unpack _) hx hy).isRounded

theorem isRounded_div (nonzero : value y ≠ 0) : IsRounded (x / y) (value x / value y) :=
  (rounds_div hx hy nonzero).isRounded

end Operations

end Worklog.Decimal
