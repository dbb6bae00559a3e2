import Worklog.Decimal.Literal
import Worklog.Proofs.Decimal.Arithmetic

/-!
# The number that a decimal is read as

A decimal is read as the number of the format that is nearest to it (`isRounded_nearest`). Most
decimals are a product or a quotient of two numbers that there is room for, or of two that are
rounded together (`isRounded_ofScientific`). Those that are out of range by far are not calculated
at all, for they are infinite (`isRounded_infinity`) or zero (`isRounded_zero`) in any case.
-/

namespace Worklog.Decimal

open Float.Model UnpackedFloat

/-! ## Whole numbers and powers of ten -/

theorem rounds_ofNat (n : ℕ) : Rounds (UnpackedFloat.ofNat .binary64 n) n := by
  have whole := rounds_normalize n 0
  rwa [zpow_zero, mul_one, Int.cast_natCast] at whole

/-- Whole numbers of up to 53 digits have room. -/
theorem onGrid_natCast {n : ℕ} (h : n < 2 ^ 53) : OnGrid n :=
  ⟨n, 0, by rw [Nat.abs_cast]; exact_mod_cast h, by decide, by simp⟩

theorem abs_natCast_lt {n : ℕ} (h : n < 2 ^ 53) : |(n : ℚ)| < 2 ^ 1024 := by
  rw [Nat.abs_cast]
  calc
    (n : ℚ) < 2 ^ 53 := by exact_mod_cast h
    _ ≤ 2 ^ 1024 := pow_le_pow_right₀ one_le_two (by decide)

theorem value_toFloat {n : ℕ} (h : n < 2 ^ 53) :
    n.toUInt64.toFloat.isFinite = true ∧ value n.toUInt64.toFloat = n := by
  have same : n.toUInt64.toNat = n := Nat.mod_eq_of_lt (h.trans (by decide))
  have stored : IsRounded n.toUInt64.toFloat n.toUInt64.toNat := (rounds_ofNat _).isRounded
  have kept : rounded n = n := rounded_of_onGrid (onGrid_natCast h)
  have small : |rounded n| < 2 ^ 1024 := by
    rw [kept]
    exact abs_natCast_lt h
  rw [same] at stored
  obtain ⟨finite, value⟩ := stored.finite small
  exact ⟨finite, value.trans kept⟩

theorem whole?_powersOfTen : ∀ e (h : e < Float.exactlyRepresentablePowersOfTen.size),
    whole? Float.exactlyRepresentablePowersOfTen[e] = some (10 ^ e) := by
  decide +kernel

/-- The first powers of ten have room, and they are what the table holds. -/
theorem value_powersOfTen (e : ℕ) (h : e < Float.exactlyRepresentablePowersOfTen.size) :
    Float.exactlyRepresentablePowersOfTen[e].isFinite = true ∧
      value Float.exactlyRepresentablePowersOfTen[e] = 10 ^ e := by
  have read := value_of_whole? (whole?_powersOfTen e h)
  push_cast at read
  exact read

/-! ## Decimals -/

theorem valueOf_natCast (n : ℕ) (h : 0 < n) : valueOf (.finite .positive n 0 h) = n := by
  rw [valueOf_positive, zpow_zero, mul_one]

/-- A product has digits enough if one of its terms is scaled up. -/
theorem rounds_mul_scaled {m n k : ℕ} (hm : 0 < m) (hn : 0 < n) (h : 0 < m <<< k) (hk : 52 ≤ k) :
    Rounds (UnpackedFloat.mul .binary64 (.finite .positive (m <<< k) (-k) h)
      (.finite .positive n 0 hn)) (m * n) := by
  have scaled : ((m <<< k * n : ℕ) : ℚ) * 2 ^ (-k + 0 : ℤ) = m * n := by
    rw [Nat.shiftLeft_eq, add_zero, zpow_neg, zpow_natCast]
    push_cast
    field_simp
  have place : (-k + 0 : ℤ) ≤ lastPlace (m * n) := by
    have whole : 0 ≤ Int.log 2 ((m : ℚ) * n) := by
      rw [← zpow_le_iff (by positivity), zpow_zero]
      exact_mod_cast Nat.mul_pos hm hn
    rw [lastPlace, abs_of_pos (by positivity)]
    omega
  have unit : (Sign.positive * Sign.positive).apply 1 = 1 := rfl
  have product := rounds_roundWithAccuracy (Sign.positive * Sign.positive)
    (represents_exact (m <<< k * n)) (by exact_mod_cast Nat.mul_pos h hn) (scaled ▸ place)
  rw [scaled, unit, Int.cast_one, one_mul] at product
  exact product

/-- A decimal is rounded if it is not so large or so small that its power of ten is left alone. -/
theorem rounds_ofScientific {m : ℕ} (hm : 0 < m) {e : ℤ} (low : -(2048 + m.log2 : ℤ) ≤ e)
    (high : e ≤ 2048) : Rounds (UnpackedFloat.ofScientific .binary64 m e) (m * 10 ^ e) := by
  have bits : (2 ^ Format.binary64.exponentBits : ℤ) = 2048 := rfl
  rw [UnpackedFloat.ofScientific, dif_neg hm.ne', bits, if_neg (by omega), if_neg (by omega)]
  split
  · rename_i whole
    have power : (10 : ℚ) ^ e = (10 ^ e.toNat : ℕ) := by
      rw [Nat.cast_pow, ← zpow_natCast, Int.toNat_of_nonneg whole]
      rfl
    rw [power]
    exact rounds_mul_scaled hm _ _ (by decide)
  · rename_i small
    have power : (10 : ℚ) ^ e = ((10 ^ (-e).toNat : ℕ) : ℚ)⁻¹ := by
      rw [Nat.cast_pow, ← zpow_natCast, Int.toNat_of_nonneg (by omega), zpow_neg, inv_inv]
      rfl
    have pos : 0 < 10 ^ (-e).toNat := Nat.pow_pos (by decide)
    have quotient := rounds_div (a := .finite .positive m 0 hm)
      (b := .finite .positive (10 ^ (-e).toNat) 0 pos) rfl rfl
      (by rw [valueOf_natCast]; exact_mod_cast pos.ne')
    rw [valueOf_natCast, valueOf_natCast] at quotient
    rw [power, ← div_eq_mul_inv]
    exact quotient

theorem isRounded_ofScientific {m : ℕ} (hm : 0 < m) {e : ℤ} (low : -(2048 + m.log2 : ℤ) ≤ e)
    (high : e ≤ 2048) :
    IsRounded (Float.ofScientific m (decide (e < 0)) e.natAbs) (m * 10 ^ e) := by
  rw [Float.ofScientific]
  split
  · rename_i small
    obtain ⟨finite, value_eq⟩ := value_toFloat small.1
    obtain ⟨finite', value_eq'⟩ := value_powersOfTen e.natAbs (Nat.lt_succ_of_le small.2)
    rcases lt_or_ge e 0 with negative | whole
    · have quotient := isRounded_div finite finite' (by rw [value_eq']; positivity)
      have power : (m : ℚ) * 10 ^ e = m / 10 ^ e.natAbs := by
        rw [div_eq_mul_inv, ← zpow_natCast, ← zpow_neg]
        congr 2
        omega
      rw [decide_eq_true negative, power]
      rwa [value_eq, value_eq'] at quotient
    · have product := isRounded_mul finite finite'
      have power : (10 : ℚ) ^ e = 10 ^ e.natAbs := by
        rw [← zpow_natCast]
        congr 1
        omega
      rw [decide_eq_false whole.not_gt, power]
      rwa [value_eq, value_eq'] at product
  · have exponent : (if decide (e < 0) = true then Int.negOfNat e.natAbs else Int.ofNat e.natAbs) =
        e := by
      split
      · rename_i negative
        have := of_decide_eq_true negative
        rw [Int.negOfNat_eq, Int.ofNat_eq_natCast]
        omega
      · rename_i whole
        have := mt decide_eq_true whole
        rw [Int.ofNat_eq_natCast]
        omega
    rw [exponent]
    exact (rounds_ofScientific hm low high).isRounded

/-! ## Out of range -/

/-- Less than half of the least number that there is room for is rounded to zero. -/
theorem rounded_eq_zero {q : ℚ} (low : 0 ≤ q) (high : q < 2 ^ (-1075 : ℤ)) : rounded q = 0 := by
  rcases low.lt_or_eq with pos | rfl
  · have place : lastPlace q = -1074 := by
      refine le_antisymm (lastPlace_le pos.ne' le_rfl ?_) (least_le_lastPlace q)
      rw [abs_of_pos pos]
      exact high.trans_le (zpow_le_zpow_right₀ one_le_two (by decide))
    have half : 2 * (q / 2 ^ (-1074 : ℤ)) < 1 := by
      rw [← mul_div_assoc, div_lt_one (by positivity)]
      calc
        2 * q < 2 * 2 ^ (-1075 : ℤ) := mul_lt_mul_of_pos_left high two_pos
        _ = 2 ^ (-1074 : ℤ) := (zpow_one_add₀ two_ne_zero (-1075)).symm
    have fraction : 0 ≤ q / 2 ^ (-1074 : ℤ) := by positivity
    have floor : ⌊q / 2 ^ (-1074 : ℤ)⌋ = 0 := Int.floor_eq_zero_iff.2 ⟨fraction, by linarith⟩
    have fract : Int.fract (q / 2 ^ (-1074 : ℤ)) = q / 2 ^ (-1074 : ℤ) := by
      rw [Int.fract, floor, Int.cast_zero, sub_zero]
    rw [rounded, place, roundEven, fract, if_pos half, floor, Int.cast_zero, zero_mul]
  · exact rounded_zero

theorem isRounded_zero {q : ℚ} (low : 0 ≤ q) (high : q < 2 ^ (-1075 : ℤ)) :
    IsRounded 0.0 q := by
  have zero : whole? 0.0 = some 0 := by decide +kernel
  obtain ⟨finite, value⟩ := value_of_whole? zero
  have result := rounded_eq_zero low high
  refine ⟨fun _ => ⟨finite, value.trans (result.trans Int.cast_zero.symm).symm⟩, ?_, ?_⟩
  · intro above
    rw [result] at above
    exact absurd above (not_le.2 (by positivity))
  · intro below
    rw [result] at below
    exact absurd below (not_le.2 (neg_lt_zero.2 (by positivity)))

theorem isRounded_infinity {q : ℚ} (h : 2 ^ 1024 ≤ q) : IsRounded (1.0 / 0.0) q := by
  have stored : (1.0 / 0.0 : Float).toModel = .pack (.infinity .positive) := by decide +kernel
  have infinite : (1.0 / 0.0 : Float).toModel.unpack = .infinity .positive := by
    rw [stored]
    exact unpack_packedInfinity .positive
  have result : 2 ^ 1024 ≤ rounded q := by
    have kept : rounded (2 ^ (1024 : ℤ)) = 2 ^ (1024 : ℤ) :=
      rounded_of_onGrid (onGrid_zpow (by decide))
    have above := rounded_mono (show (2 : ℚ) ^ (1024 : ℤ) ≤ q from h)
    rwa [kept] at above
  have pos : (0 : ℚ) < rounded q := lt_of_lt_of_le (by positivity) result
  refine ⟨fun small => ?_, fun _ => infinite, fun below => ?_⟩
  · rw [abs_of_pos pos] at small
    exact absurd result small.not_ge
  · exact absurd (pos.trans_le below) (not_lt.2 (neg_nonpos.2 (by positivity)))

/-! ## Decimals -/

theorem lt_pow_digitCount (m : ℕ) : m < 10 ^ digitCount m :=
  (Nat.length_toDigits_le_iff (by decide) Nat.length_toDigits_pos).1 le_rfl

theorem pow_le_of_digitCount {m k : ℕ} (hm : 0 < m) (h : digitCount m = k + 1) : 10 ^ k ≤ m := by
  rcases Nat.eq_zero_or_pos k with rfl | pos
  · exact hm
  · refine Nat.le_of_not_lt fun short => ?_
    have := (Nat.length_toDigits_le_iff (by decide) pos).2 short
    exact absurd (h.symm.trans_le this) (by omega)

theorem exists_digitCount (m : ℕ) : ∃ k, digitCount m = k + 1 :=
  Nat.exists_eq_add_one.2 Nat.length_toDigits_pos

/-- A decimal is read as the number that is nearest to it. -/
theorem isRounded_nearest (m : ℕ) (e : ℤ) : IsRounded (nearest m e) (m * 10 ^ e) := by
  obtain ⟨k, count⟩ := exists_digitCount m
  have upper : (m : ℚ) < 10 ^ (k + 1) := by exact_mod_cast count ▸ lt_pow_digitCount m
  simp only [nearest, count]
  split
  · rename_i small
    refine isRounded_zero (by positivity) ?_
    rcases small with rfl | small
    · rw [Nat.cast_zero, zero_mul]
      positivity
    · calc
        (m : ℚ) * 10 ^ e < 10 ^ (k + 1) * 10 ^ e := mul_lt_mul_of_pos_right upper (by positivity)
        _ = 10 ^ (e + (k + 1 : ℕ)) := by
          rw [zpow_add₀ (by decide), zpow_natCast, mul_comm]
        _ ≤ 10 ^ (-331 : ℤ) := zpow_le_zpow_right₀ (by decide) (by omega)
        _ < 2 ^ (-1075 : ℤ) := by
          have powers : 2 ^ 1075 < 10 ^ 331 := by decide +kernel
          rw [zpow_neg, zpow_neg]
          refine inv_strictAnti₀ (by positivity) ?_
          exact_mod_cast powers
  · rename_i large
    obtain ⟨nonzero, least⟩ := not_or.1 large
    have lower := pow_le_of_digitCount (Nat.pos_of_ne_zero nonzero) count
    split
    · refine isRounded_infinity ?_
      calc
        (2 : ℚ) ^ 1024 ≤ 10 ^ (310 : ℤ) := by
          have powers : 2 ^ 1024 ≤ 10 ^ 310 := by decide +kernel
          exact_mod_cast powers
        _ ≤ 10 ^ (e + k) := zpow_le_zpow_right₀ (by decide) (by omega)
        _ = 10 ^ k * 10 ^ e := by rw [zpow_add₀ (by decide), zpow_natCast, mul_comm]
        _ ≤ m * 10 ^ e := mul_le_mul_of_nonneg_right (by exact_mod_cast lower) (by positivity)
    · have digits : k ≤ m.log2 := by
        rw [Nat.le_log2 nonzero]
        exact (Nat.pow_le_pow_left (by decide) k).trans lower
      exact isRounded_ofScientific (Nat.pos_of_ne_zero nonzero) (by omega) (by omega)

end Worklog.Decimal
