import Mathlib

/-!
# The nearest number of the format

The format has room for 53 binary digits, none of them below the place `-1074`. A rational number
is rounded by keeping as many of its digits (`rounded`); of two results that are equally near, the
one that ends in an even digit is taken. How large a number is does not matter here.

Rounding leaves alone what has room (`rounded_of_onGrid`) and keeps the order of numbers
(`rounded_mono`), so it never crosses a number that has room. It does not matter whether a number is
scaled by a power of two before or after (`rounded_mul_two_pow`), and what is lost is small against
the number (`abs_rounded_sub_le`), unless that has digits below the least place.
-/

namespace Worklog.Decimal

/-! ## Whole numbers -/

/-- The whole number nearest to a number; of two that are equally near, the even one. -/
def roundEven (q : ℚ) : ℤ :=
  if 2 * Int.fract q < 1 then ⌊q⌋
  else if 1 < 2 * Int.fract q then ⌊q⌋ + 1
  else ⌊q⌋ + ⌊q⌋ % 2

@[simp] theorem roundEven_intCast (n : ℤ) : roundEven n = n := by
  simp [roundEven]

theorem floor_le_roundEven (q : ℚ) : ⌊q⌋ ≤ roundEven q := by
  unfold roundEven
  split_ifs
  all_goals omega

theorem roundEven_le_floor (q : ℚ) : roundEven q ≤ ⌊q⌋ + 1 := by
  unfold roundEven
  split_ifs
  all_goals omega

theorem roundEven_mono : Monotone roundEven := by
  intro p q h
  rcases (Int.floor_mono h).lt_or_eq with below | same
  · calc
      roundEven p ≤ ⌊p⌋ + 1 := roundEven_le_floor p
      _ ≤ ⌊q⌋ := below
      _ ≤ roundEven q := floor_le_roundEven q
  · have fract : Int.fract p ≤ Int.fract q := by
      rw [Int.fract, Int.fract, same]
      exact sub_le_sub_right h _
    unfold roundEven
    rw [same]
    split_ifs
    all_goals first | omega | linarith

theorem roundEven_neg (q : ℚ) : roundEven (-q) = -roundEven q := by
  by_cases fract : Int.fract q = 0
  · obtain ⟨n, rfl⟩ := Int.fract_eq_zero_iff.1 fract
    rw [← Int.cast_neg, roundEven_intCast, roundEven_intCast]
  · have floor : ⌊-q⌋ = -⌊q⌋ - 1 := by
      have split := Int.floor_add_fract (-q)
      rw [Int.fract_neg fract, Int.fract] at split
      have := split.trans (neg_eq_neg_one_mul q)
      rify at *
      linarith
    unfold roundEven
    rw [floor, Int.fract_neg fract]
    split_ifs
    all_goals first | omega | linarith

theorem abs_roundEven_sub_le (q : ℚ) : |roundEven q - q| ≤ 1 / 2 := by
  have split := Int.floor_add_fract q
  have low := Int.fract_nonneg q
  have high := Int.fract_lt_one q
  have parity : ⌊q⌋ % 2 = 0 ∨ ⌊q⌋ % 2 = 1 := Int.emod_two_eq ⌊q⌋
  rw [abs_le]
  unfold roundEven
  split_ifs
  · constructor <;> linarith
  · push_cast
    constructor <;> linarith
  · rcases parity with even | odd
    · rw [even, add_zero]
      constructor <;> linarith
    · rw [odd]
      push_cast
      constructor <;> linarith

/-! ## Places -/

/-- The place of the last digit that there is room for. -/
def lastPlace (q : ℚ) : ℤ :=
  max (Int.log 2 |q| - 52) (-1074)

/-- The number rounded to the digits that there is room for. -/
def rounded (q : ℚ) : ℚ :=
  roundEven (q / 2 ^ lastPlace q) * 2 ^ lastPlace q

/-- Whether there is room for all digits of a number. -/
def OnGrid (q : ℚ) : Prop :=
  ∃ m e : ℤ, |m| < 2 ^ 53 ∧ -1074 ≤ e ∧ q = m * 2 ^ e

theorem zpow_le_iff {k : ℤ} {q : ℚ} (hq : 0 < q) : (2 : ℚ) ^ k ≤ q ↔ k ≤ Int.log 2 q := by
  rw [← Int.zpow_le_iff_le_log one_lt_two hq, Nat.cast_ofNat]

theorem lt_zpow_iff {k : ℤ} {q : ℚ} (hq : 0 < q) : q < (2 : ℚ) ^ k ↔ Int.log 2 q < k := by
  rw [← Int.lt_zpow_iff_log_lt one_lt_two hq, Nat.cast_ofNat]

theorem log_mul_zpow {q : ℚ} (hq : 0 < q) (k : ℤ) : Int.log 2 (q * 2 ^ k) = Int.log 2 q + k := by
  have pos : 0 < q * 2 ^ k := by positivity
  refine le_antisymm (Int.lt_add_one_iff.1 ?_) ?_
  · rw [← lt_zpow_iff pos, add_right_comm, zpow_add₀ two_ne_zero]
    exact mul_lt_mul_of_pos_right ((lt_zpow_iff hq).2 (Int.lt_succ _)) (by positivity)
  · rw [← zpow_le_iff pos, zpow_add₀ two_ne_zero]
    exact mul_le_mul_of_nonneg_right ((zpow_le_iff hq).2 le_rfl) (by positivity)

theorem lastPlace_neg (q : ℚ) : lastPlace (-q) = lastPlace q := by
  rw [lastPlace, lastPlace, abs_neg]

theorem lastPlace_mono {p q : ℚ} (hp : p ≠ 0) (h : |p| ≤ |q|) : lastPlace p ≤ lastPlace q :=
  max_le_max_right _ (sub_le_sub_right (Int.log_mono_right (abs_pos.2 hp) h) _)

theorem least_le_lastPlace (q : ℚ) : -1074 ≤ lastPlace q :=
  le_max_right ..

theorem lastPlace_le {q : ℚ} (hq : q ≠ 0) {k : ℤ} (least : -1074 ≤ k) (h : |q| < 2 ^ (k + 53)) :
    lastPlace q ≤ k := by
  have := (lt_zpow_iff (abs_pos.2 hq)).1 h
  rw [lastPlace]
  omega

/-- There are no more than 53 digits up to the last place. -/
theorem abs_div_lt (q : ℚ) : |q| / 2 ^ lastPlace q < 2 ^ 53 := by
  rcases eq_or_ne q 0 with rfl | hq
  · simp
  · rw [div_lt_iff₀ (by positivity), ← zpow_natCast, ← zpow_add₀ two_ne_zero,
      lt_zpow_iff (abs_pos.2 hq), lastPlace]
    push_cast
    omega

theorem roundEven_digits_le (q : ℚ) : roundEven (|q| / 2 ^ lastPlace q) ≤ 2 ^ 53 := by
  have := roundEven_mono ((abs_div_lt q).le.trans_eq (by norm_cast : _ = ((2 ^ 53 : ℤ) : ℚ)))
  rwa [roundEven_intCast] at this

/-- There are 53 digits, unless there is no room for as many. -/
theorem le_roundEven_digits {q : ℚ} (hq : q ≠ 0) :
    2 ^ 52 ≤ roundEven (|q| / 2 ^ lastPlace q) ∨ lastPlace q = -1074 := by
  rcases (least_le_lastPlace q).lt_or_eq with above | least
  · have leading := (zpow_le_iff (abs_pos.2 hq)).2 le_rfl
    have place : Int.log 2 |q| = 52 + lastPlace q := by
      rw [lastPlace] at above ⊢
      omega
    rw [place, zpow_add₀ two_ne_zero, ← le_div_iff₀ (by positivity)] at leading
    have := roundEven_mono (le_trans (by norm_cast : ((2 ^ 52 : ℤ) : ℚ) ≤ _) leading)
    rw [roundEven_intCast] at this
    exact .inl this
  · exact .inr least.symm

/-- A multiple of a place is a multiple of every lower one. -/
theorem exists_eq_mul_zpow (m : ℤ) {e k : ℤ} (h : k ≤ e) :
    ∃ n : ℤ, (m : ℚ) * 2 ^ e = n * 2 ^ k := by
  refine ⟨m * 2 ^ (e - k).toNat, ?_⟩
  have split : (2 : ℚ) ^ e = 2 ^ (e - k).toNat * 2 ^ k := by
    rw [← zpow_natCast, ← zpow_add₀ two_ne_zero]
    congr 1
    omega
  rw [split]
  push_cast
  ring

/-! ## Numbers that have room -/

theorem onGrid_zero : OnGrid 0 :=
  ⟨0, 0, by decide, by decide, by simp⟩

theorem onGrid_zpow {k : ℤ} (h : -1074 ≤ k) : OnGrid (2 ^ k) :=
  ⟨1, k, by decide, h, by simp⟩

theorem OnGrid.exists_eq {q : ℚ} (h : OnGrid q) : ∃ n : ℤ, q = n * 2 ^ lastPlace q := by
  obtain ⟨m, e, hm, he, rfl⟩ := h
  rcases eq_or_ne m 0 with rfl | hm0
  · exact ⟨0, by simp⟩
  · refine exists_eq_mul_zpow m (lastPlace_le ?_ he ?_)
    · exact mul_ne_zero (Int.cast_ne_zero.2 hm0) (zpow_ne_zero _ two_ne_zero)
    · have : |(m : ℚ)| < 2 ^ 53 := by exact_mod_cast hm
      rw [abs_mul, abs_of_pos (zpow_pos two_pos e : (0 : ℚ) < 2 ^ e), add_comm,
        zpow_add₀ two_ne_zero]
      exact mul_lt_mul_of_pos_right this (by positivity)

theorem rounded_of_eq {q : ℚ} {n : ℤ} (h : q = n * 2 ^ lastPlace q) : rounded q = q := by
  have whole : q / 2 ^ lastPlace q = n := by
    rw [div_eq_iff (by positivity)]
    exact h
  rw [rounded, whole, roundEven_intCast]
  exact h.symm

theorem rounded_of_onGrid {q : ℚ} (h : OnGrid q) : rounded q = q := by
  obtain ⟨n, hn⟩ := h.exists_eq
  exact rounded_of_eq hn

@[simp] theorem rounded_zero : rounded 0 = 0 :=
  rounded_of_onGrid onGrid_zero

/-! ## Order -/

theorem rounded_neg (q : ℚ) : rounded (-q) = -rounded q := by
  rw [rounded, rounded, lastPlace_neg, neg_div, roundEven_neg, Int.cast_neg, neg_mul]

theorem rounded_nonneg {q : ℚ} (h : 0 ≤ q) : 0 ≤ rounded q := by
  have whole : roundEven ((0 : ℤ) : ℚ) ≤ roundEven (q / 2 ^ lastPlace q) :=
    roundEven_mono (by push_cast; positivity)
  rw [roundEven_intCast] at whole
  exact mul_nonneg (Int.cast_nonneg whole) (by positivity)

/-- Multiples of the last place are not crossed. -/
theorem rounded_le_of_le {q : ℚ} {n : ℤ} (h : q ≤ n * 2 ^ lastPlace q) :
    rounded q ≤ n * 2 ^ lastPlace q := by
  have whole := roundEven_mono ((div_le_iff₀ (by positivity)).2 h)
  rw [roundEven_intCast] at whole
  exact mul_le_mul_of_nonneg_right (Int.cast_le.2 whole) (by positivity)

theorem le_rounded_of_le {q : ℚ} {n : ℤ} (h : n * 2 ^ lastPlace q ≤ q) :
    n * 2 ^ lastPlace q ≤ rounded q := by
  have whole := roundEven_mono ((le_div_iff₀ (by positivity)).2 h)
  rw [roundEven_intCast] at whole
  exact mul_le_mul_of_nonneg_right (Int.cast_le.2 whole) (by positivity)

theorem rounded_le_rounded_of_pos {p q : ℚ} (hp : 0 < p) (h : p ≤ q) : rounded p ≤ rounded q := by
  have hq : 0 < q := hp.trans_le h
  have places : lastPlace p ≤ lastPlace q :=
    lastPlace_mono hp.ne' (by rwa [abs_of_pos hp, abs_of_pos hq])
  rcases places.lt_or_eq with below | same
  · -- The leading digit of the larger number alone lies between the two results.
    have hlog : lastPlace q = Int.log 2 q - 52 := by
      have := least_le_lastPlace p
      have := lastPlace.eq_1 q
      rw [abs_of_pos hq] at this
      omega
    have lower : lastPlace p ≤ Int.log 2 q := by omega
    have hpq : p ≤ 2 ^ Int.log 2 q := by
      refine ((lt_zpow_iff hp).2 ?_).le
      rw [hlog, lastPlace, abs_of_pos hp] at below
      omega
    obtain ⟨n, hn⟩ := exists_eq_mul_zpow 1 lower
    obtain ⟨n', hn'⟩ := exists_eq_mul_zpow 1 (show lastPlace q ≤ Int.log 2 q by omega)
    rw [Int.cast_one, one_mul] at hn hn'
    calc
      rounded p ≤ n * 2 ^ lastPlace p := rounded_le_of_le (hn ▸ hpq)
      _ = n' * 2 ^ lastPlace q := hn.symm.trans hn'
      _ ≤ rounded q := le_rounded_of_le (hn' ▸ (zpow_le_iff hq).2 le_rfl)
  · rw [rounded, rounded, same]
    refine mul_le_mul_of_nonneg_right (Int.cast_le.2 (roundEven_mono ?_)) (by positivity)
    exact div_le_div_of_nonneg_right h (by positivity)

theorem rounded_mono : Monotone rounded := by
  intro p q h
  rcases lt_or_ge 0 p with hp | hp
  · exact rounded_le_rounded_of_pos hp h
  · rcases lt_or_ge q 0 with hq | hq
    · have := rounded_le_rounded_of_pos (neg_pos.2 hq) (neg_le_neg h)
      rwa [rounded_neg, rounded_neg, neg_le_neg_iff] at this
    · have := rounded_nonneg (neg_nonneg.2 hp)
      rw [rounded_neg, neg_nonneg] at this
      exact this.trans (rounded_nonneg hq)

theorem abs_rounded_le {q g : ℚ} (h : |q| ≤ g) : |rounded q| ≤ rounded g := by
  obtain ⟨low, high⟩ := abs_le.1 h
  rw [abs_le, ← rounded_neg]
  exact ⟨rounded_mono low, rounded_mono high⟩

/-! ## Scaling and loss -/

theorem OnGrid.mul_two_pow {q : ℚ} (h : OnGrid q) (k : ℕ) : OnGrid (q * 2 ^ k) := by
  obtain ⟨m, e, hm, he, rfl⟩ := h
  refine ⟨m, e + k, hm, by omega, ?_⟩
  rw [zpow_add₀ two_ne_zero, zpow_natCast, mul_assoc]

/-- A multiple of the least place has room, unless it has a digit above the 53 lowest places. -/
theorem onGrid_or_lastPlace_eq {n : ℤ} {q : ℚ} (h : q = n * 2 ^ (-1074 : ℤ)) :
    OnGrid q ∨ lastPlace q = Int.log 2 |q| - 52 := by
  rcases le_or_gt (-1074) (Int.log 2 |q| - 52) with high | low
  · exact .inr (max_eq_left high)
  · refine .inl ⟨n, -1074, ?_, le_rfl, h⟩
    rcases eq_or_ne q 0 with rfl | hq
    · have : n = 0 := by simpa using h.symm
      simp [this]
    · have small : |q| < 2 ^ (-1021 : ℤ) := (lt_zpow_iff (abs_pos.2 hq)).2 (by omega)
      have split : (2 : ℚ) ^ (-1021 : ℤ) = 2 ^ 53 * 2 ^ (-1074 : ℤ) := by
        rw [← zpow_natCast, ← zpow_add₀ two_ne_zero]
        rfl
      rw [h, abs_mul, abs_of_pos (zpow_pos two_pos _ : (0 : ℚ) < 2 ^ (-1074 : ℤ)), split] at small
      exact_mod_cast lt_of_mul_lt_mul_right small (by positivity)

/-- It does not matter whether a number is doubled before or after it is rounded. -/
theorem rounded_mul_two_pow {n : ℤ} {q : ℚ} (h : q = n * 2 ^ (-1074 : ℤ)) (k : ℕ) :
    rounded (q * 2 ^ k) = rounded q * 2 ^ k := by
  rcases eq_or_ne q 0 with rfl | hq
  · simp
  · rcases onGrid_or_lastPlace_eq h with fits | place
    · rw [rounded_of_onGrid fits, rounded_of_onGrid (fits.mul_two_pow k)]
    · have places : lastPlace (q * 2 ^ k) = lastPlace q + k := by
        have least := least_le_lastPlace q
        have log := log_mul_zpow (abs_pos.2 hq) k
        rw [zpow_natCast] at log
        rw [lastPlace, abs_mul, abs_of_pos (pow_pos two_pos k : (0 : ℚ) < 2 ^ k), log]
        omega
      rw [rounded, rounded, places, zpow_add₀ two_ne_zero, zpow_natCast,
        mul_div_mul_right _ _ (by positivity), mul_assoc]

/-- Rounding loses little of a number that has no digits below the least place. -/
theorem abs_rounded_sub_le {n : ℤ} {q : ℚ} (h : q = n * 2 ^ (-1074 : ℤ)) :
    |rounded q - q| ≤ |q| / 2 ^ 53 := by
  rcases eq_or_ne q 0 with rfl | hq
  · simp
  · rcases onGrid_or_lastPlace_eq h with fits | place
    · rw [rounded_of_onGrid fits, sub_self, abs_zero]
      positivity
    · have unit : (0 : ℚ) < 2 ^ lastPlace q := by positivity
      have leading := (zpow_le_iff (abs_pos.2 hq)).2 le_rfl
      have split : (2 : ℚ) ^ Int.log 2 |q| = 2 ^ 52 * 2 ^ lastPlace q := by
        rw [← zpow_natCast, ← zpow_add₀ two_ne_zero, place]
        congr 1
        push_cast
        ring
      calc
        |rounded q - q| = |roundEven (q / 2 ^ lastPlace q) - q / 2 ^ lastPlace q| *
            2 ^ lastPlace q := by
          rw [← abs_of_pos unit, ← abs_mul, abs_of_pos unit, sub_mul, div_mul_cancel₀ _ unit.ne',
            rounded]
        _ ≤ 1 / 2 * 2 ^ lastPlace q :=
          mul_le_mul_of_nonneg_right (abs_roundEven_sub_le _) unit.le
        _ ≤ |q| / 2 ^ 53 := by
          rw [le_div_iff₀ (by positivity)]
          linarith

end Worklog.Decimal
