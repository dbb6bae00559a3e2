import Worklog.Proofs.Decimal.Conversion

/-!
# Decimals that are read as whole numbers

A decimal that is close to a whole number may be read as that number. How close it has to be is told
by the neighbours of the whole number in the format: a number with an even last digit takes all that
lies up to the middle on either side, the middle itself included (`le_rounded_iff`,
`rounded_le_iff`). Whole numbers of up to 52 digits are of this kind (`rounded_eq_natCast_iff`).
-/

namespace Worklog.Decimal

/-! ## Beyond the middle of two neighbours -/

/-- A number that is beyond the middle of two neighbours is rounded to the second one at least. -/
theorem lt_rounded {q : ℚ} {n : ℤ} (h : (n + 1 / 2) * 2 ^ lastPlace q < q) :
    n * 2 ^ lastPlace q < rounded q := by
  have unit : (0 : ℚ) < 2 ^ lastPlace q := by positivity
  have near := (abs_le.1 (abs_roundEven_sub_le (q / 2 ^ lastPlace q))).1
  have beyond : (n + 1 / 2 : ℚ) < q / 2 ^ lastPlace q := (lt_div_iff₀ unit).2 h
  exact mul_lt_mul_of_pos_right (by linarith) unit

theorem rounded_lt {q : ℚ} {n : ℤ} (h : q < (n - 1 / 2) * 2 ^ lastPlace q) :
    rounded q < n * 2 ^ lastPlace q := by
  have unit : (0 : ℚ) < 2 ^ lastPlace q := by positivity
  have near := (abs_le.1 (abs_roundEven_sub_le (q / 2 ^ lastPlace q))).2
  have before : q / 2 ^ lastPlace q < (n - 1 / 2 : ℚ) := (div_lt_iff₀ unit).2 h
  exact mul_lt_mul_of_pos_right (by linarith) unit

/-- In the middle of two neighbours, the even one is taken. -/
theorem roundEven_add_half (n : ℤ) : roundEven (n + 1 / 2) = n + n % 2 := by
  have floor : ⌊(n : ℚ) + 1 / 2⌋ = n := by
    rw [Int.floor_intCast_add]
    norm_num
  have fract : 2 * Int.fract ((n : ℚ) + 1 / 2) = 1 := by
    rw [Int.fract, floor]
    ring
  rw [roundEven, fract, floor, if_neg (lt_irrefl _), if_neg (lt_irrefl _)]

/-! ## Numbers that are rounded to an even one -/

section Even

variable {m k : ℤ} {q : ℚ} (least : -1022 ≤ k)

/-- Digits up to the place `k` stand in the places from `k - 52` on. -/
theorem zpow_digits (k : ℤ) :
    (2 : ℚ) ^ 52 * 2 ^ (k - 52) = 2 ^ k ∧ (2 : ℚ) ^ 53 * 2 ^ (k - 52) = 2 ^ (k + 1) := by
  rw [← zpow_natCast, ← zpow_natCast, ← zpow_add₀ two_ne_zero, ← zpow_add₀ two_ne_zero]
  refine ⟨congrArg _ ?_, congrArg _ ?_⟩
  all_goals
    push_cast
    ring

include least

theorem lastPlace_eq (low : 2 ^ 52 * 2 ^ (k - 52) ≤ q) (high : q < 2 ^ 53 * 2 ^ (k - 52)) :
    lastPlace q = k - 52 := by
  rw [(zpow_digits k).1] at low
  rw [(zpow_digits k).2] at high
  have pos : 0 < q := lt_of_lt_of_le (by positivity) low
  have lower := (zpow_le_iff pos).1 low
  have upper := (lt_zpow_iff pos).1 high
  rw [lastPlace, abs_of_pos pos]
  omega

/-- The number in the middle of two neighbours is rounded to the even one of them. -/
theorem rounded_middle (low : 2 ^ 52 ≤ m) (high : m < 2 ^ 53) :
    rounded ((m + 1 / 2) * 2 ^ (k - 52)) = (m + m % 2 : ℤ) * 2 ^ (k - 52) := by
  have unit : (0 : ℚ) < 2 ^ (k - 52) := by positivity
  have lower : (2 : ℚ) ^ 52 ≤ m := by exact_mod_cast low
  have upper : (m : ℚ) + 1 ≤ 2 ^ 53 := by exact_mod_cast high
  have place : lastPlace ((m + 1 / 2) * 2 ^ (k - 52)) = k - 52 :=
    lastPlace_eq least (mul_le_mul_of_nonneg_right (by linarith) unit.le)
      (mul_lt_mul_of_pos_right (by linarith) unit)
  rw [rounded, place, mul_div_cancel_right₀ _ unit.ne', roundEven_add_half]

theorem rounded_le_iff (low : 2 ^ 52 ≤ m) (high : m < 2 ^ 53) (even : m % 2 = 0) :
    rounded q ≤ m * 2 ^ (k - 52) ↔ q ≤ (m + 1 / 2) * 2 ^ (k - 52) := by
  have unit : (0 : ℚ) < 2 ^ (k - 52) := by positivity
  have lower : (2 : ℚ) ^ 52 ≤ m := by exact_mod_cast low
  have upper : (m : ℚ) + 1 ≤ 2 ^ 53 := by exact_mod_cast high
  have middle := rounded_middle least low high
  rw [even, add_zero] at middle
  refine ⟨fun h => not_lt.1 fun beyond => h.not_gt ?_, fun h => (rounded_mono h).trans_eq middle⟩
  rcases lt_or_ge q (2 ^ 53 * 2 ^ (k - 52)) with near | far
  · have place : lastPlace q = k - 52 := by
      refine lastPlace_eq least (le_trans ?_ beyond.le) near
      exact mul_le_mul_of_nonneg_right (by linarith) unit.le
    rw [← place] at beyond ⊢
    exact lt_rounded beyond
  · -- The next power of two has room itself, and is not crossed.
    have kept : rounded (2 ^ 53 * 2 ^ (k - 52)) = 2 ^ 53 * 2 ^ (k - 52) := by
      rw [(zpow_digits k).2]
      exact rounded_of_onGrid (onGrid_zpow (by omega))
    calc
      (m : ℚ) * 2 ^ (k - 52) < 2 ^ 53 * 2 ^ (k - 52) := mul_lt_mul_of_pos_right (by linarith) unit
      _ ≤ rounded q := kept ▸ rounded_mono far

theorem le_rounded_iff (low : 2 ^ 52 < m) (high : m ≤ 2 ^ 53) (even : m % 2 = 0) :
    m * 2 ^ (k - 52) ≤ rounded q ↔ (m - 1 / 2) * 2 ^ (k - 52) ≤ q := by
  have unit : (0 : ℚ) < 2 ^ (k - 52) := by positivity
  have lower : (2 : ℚ) ^ 52 + 1 ≤ m := by exact_mod_cast low
  have upper : (m : ℚ) ≤ 2 ^ 53 := by exact_mod_cast high
  have middle := rounded_middle least (show 2 ^ 52 ≤ m - 1 by omega) (by omega)
  have halfway : ((m - 1 : ℤ) + 1 / 2 : ℚ) = m - 1 / 2 := by
    push_cast
    ring
  rw [halfway, show m - 1 + (m - 1) % 2 = m by omega] at middle
  refine ⟨fun h => not_lt.1 fun before => h.not_gt ?_, fun h => middle ▸ rounded_mono h⟩
  rcases le_or_gt (2 ^ 52 * 2 ^ (k - 52)) q with near | far
  · have place : lastPlace q = k - 52 := by
      refine lastPlace_eq least near (before.trans ?_)
      exact mul_lt_mul_of_pos_right (by linarith) unit
    rw [← place] at before ⊢
    exact rounded_lt before
  · have kept : rounded (2 ^ 52 * 2 ^ (k - 52)) = 2 ^ 52 * 2 ^ (k - 52) := by
      rw [(zpow_digits k).1]
      exact rounded_of_onGrid (onGrid_zpow (by omega))
    calc
      rounded q ≤ 2 ^ 52 * 2 ^ (k - 52) := kept ▸ rounded_mono far.le
      _ < m * 2 ^ (k - 52) := mul_lt_mul_of_pos_right (by linarith) unit

end Even

/-! ## Whole numbers -/

/-- A whole number in units of a lower place, which are halved to find the middle. -/
theorem natCast_eq_units (n j : ℕ) (k : ℤ) (hk : k - 52 = -(j : ℤ)) :
    (n : ℚ) = ((n * 2 ^ j : ℕ) : ℤ) * 2 ^ (k - 52) ∧ 1 / 2 * (2 : ℚ) ^ (k - 52) = 2 ^ (k - 53) := by
  constructor
  · rw [hk, zpow_neg, zpow_natCast]
    push_cast
    field_simp
  · rw [show k - 52 = 1 + (k - 53) by ring, zpow_one_add₀ two_ne_zero]
    ring

theorem units_even {n j : ℕ} (hj : 0 < j) : ((n * 2 ^ j : ℕ) : ℤ) % 2 = 0 := by
  obtain ⟨i, rfl⟩ := Nat.exists_eq_add_one.2 hj
  rw [pow_succ, ← mul_assoc]
  omega

theorem pow_clog_lt_two_mul {n : ℕ} (hn : 0 < n) : 2 ^ Nat.clog 2 n < 2 * n := by
  cases h : Nat.clog 2 n with
  | zero => omega
  | succ i =>
    rw [pow_succ']
    exact Nat.mul_lt_mul_of_pos_left (Nat.pow_lt_of_lt_clog (by omega)) two_pos

/--
What is rounded to a whole number lies around it, up to half the distance to the neighbours on
either side. Below a power of two these are twice as close as above it.
-/
theorem rounded_eq_natCast_iff {n : ℕ} (low : 0 < n) (high : n < 2 ^ 52) {q : ℚ} :
    rounded q = n ↔
      (n : ℚ) - 2 ^ ((Nat.clog 2 n : ℤ) - 54) ≤ q ∧ q ≤ n + 2 ^ ((Nat.log 2 n : ℤ) - 53) := by
  have floor : Nat.log 2 n < 52 := Nat.log_lt_of_lt_pow low.ne' high
  have ceil : Nat.clog 2 n ≤ 52 := Nat.clog_le_of_le_pow high.le
  have above : rounded q ≤ n ↔ q ≤ n + 2 ^ ((Nat.log 2 n : ℤ) - 53) := by
    obtain ⟨j, hj⟩ : ∃ j, 52 = Nat.log 2 n + j := Nat.exists_eq_add_of_le floor.le
    obtain ⟨units, half⟩ := natCast_eq_units n j (Nat.log 2 n) (by omega)
    have lower : 2 ^ 52 ≤ n * 2 ^ j := by
      rw [hj, pow_add]
      exact Nat.mul_le_mul_right _ (Nat.pow_log_le_self 2 low.ne')
    have upper : n * 2 ^ j < 2 ^ 53 := by
      rw [show 53 = Nat.log 2 n + 1 + j by omega, pow_add]
      exact Nat.mul_lt_mul_of_pos_right (Nat.lt_pow_succ_log_self one_lt_two n) (by positivity)
    rw [← half, units, ← add_mul]
    exact rounded_le_iff (by omega) (by exact_mod_cast lower) (by exact_mod_cast upper)
      (units_even (by omega))
  have below : n ≤ rounded q ↔ (n : ℚ) - 2 ^ ((Nat.clog 2 n : ℤ) - 54) ≤ q := by
    obtain ⟨j, hj⟩ : ∃ j, 53 = Nat.clog 2 n + j := Nat.exists_eq_add_of_le (by omega)
    obtain ⟨units, half⟩ := natCast_eq_units n j (Nat.clog 2 n - 1) (by omega)
    have lower : 2 ^ 52 < n * 2 ^ j := by
      refine Nat.lt_of_mul_lt_mul_left (a := 2) ?_
      calc
        2 * 2 ^ 52 = 2 ^ Nat.clog 2 n * 2 ^ j := by rw [← pow_add, ← hj, ← pow_succ']
        _ < 2 * n * 2 ^ j :=
          Nat.mul_lt_mul_of_pos_right (pow_clog_lt_two_mul low) (by positivity)
        _ = 2 * (n * 2 ^ j) := mul_assoc ..
    have upper : n * 2 ^ j ≤ 2 ^ 53 := by
      rw [hj, pow_add]
      exact Nat.mul_le_mul_right _ (Nat.le_pow_clog one_lt_two n)
    rw [show (Nat.clog 2 n : ℤ) - 54 = Nat.clog 2 n - 1 - 53 by ring, ← half, units, ← sub_mul]
    exact le_rounded_iff (by omega) (by exact_mod_cast lower) (by exact_mod_cast upper)
      (units_even (by omega))
  rw [le_antisymm_iff, above, below, and_comm]

/-- A decimal is read as a whole number if that is what it is rounded to. -/
theorem IsRounded.whole?_eq_some_iff {x : Float} {q : ℚ} (h : IsRounded x q) {n : ℤ}
    (small : |(n : ℚ)| < 2 ^ 1024) : whole? x = some n ↔ rounded q = n := by
  rw [Decimal.whole?_eq_some_iff]
  constructor
  · rintro ⟨finite, hv⟩
    rw [← h.value_eq finite, hv]
  · intro hq
    obtain ⟨finite, hv⟩ := h.finite (by rwa [hq])
    exact ⟨finite, hv.trans hq⟩

end Worklog.Decimal
