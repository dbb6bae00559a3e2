import Worklog.Proofs.Decimal.Nonnegative

/-!
# Sums and what they lose

Rounding loses nothing of a sum that there is room for: the total of multiples of one unit is exact
as long as it is not more than `2 ^ 53` units (`total_exact`). In general each addition may lose a
little, so the total of numbers that are near to what they stand for is near to the sum of that,
with as many more roundings as there are summands (`near_total`).
-/

namespace Worklog

namespace Decimal

/-! ## Exact sums -/

/-- The multiples of a unit that there is room for. -/
theorem onGrid_div {k n : ℕ} (hk : k ≤ 1074) (hn : n ≤ 2 ^ 53) : OnGrid (n / 2 ^ k) := by
  have split (n : ℕ) : (n : ℚ) / 2 ^ k = n * 2 ^ (-k : ℤ) := by
    rw [zpow_neg, zpow_natCast, div_eq_mul_inv]
  rcases hn.lt_or_eq with below | rfl
  · exact ⟨n, -k, by simpa using below, by omega, split n⟩
  · refine ⟨1, 53 - k, by decide, by omega, ?_⟩
    rw [split, sub_eq_add_neg, zpow_add₀ two_ne_zero]
    norm_num

/-- Whether a number is a finite multiple of a unit. -/
def IsMultiple (k : ℕ) (x : Float) : Prop :=
  x.isFinite = true ∧ ∃ n : ℕ, value x = n / 2 ^ k

theorem add_exact {k : ℕ} (hk : k ≤ 1074) {x y : Float} (hx : IsMultiple k x)
    (hy : IsMultiple k y) (small : value x + value y ≤ 2 ^ 53 / 2 ^ k) :
    IsMultiple k (x + y) ∧ value (x + y) = value x + value y := by
  obtain ⟨fx, n, hn⟩ := hx
  obtain ⟨fy, n', hn'⟩ := hy
  have sum : value x + value y = (n + n' : ℕ) / 2 ^ k := by
    rw [hn, hn', ← add_div, Nat.cast_add]
  have count : n + n' ≤ 2 ^ 53 := by
    rw [sum, div_le_div_iff_of_pos_right (by positivity)] at small
    exact_mod_cast small
  have kept : rounded (value x + value y) = value x + value y := by
    rw [sum]
    exact rounded_of_onGrid (onGrid_div hk count)
  have below : |value x + value y| < 2 ^ 1024 := by
    rw [sum, abs_of_nonneg (by positivity), ← sum]
    calc
      value x + value y ≤ 2 ^ 53 / 2 ^ k := small
      _ ≤ 2 ^ 53 := div_le_self (by positivity) (one_le_pow₀ one_le_two)
      _ < 2 ^ 1024 := pow_lt_pow_right₀ one_lt_two (by decide)
  obtain ⟨finite, hv⟩ := (isRounded_add fx fy).finite (by rwa [kept])
  rw [kept] at hv
  exact ⟨⟨finite, n + n', hv.trans sum⟩, hv⟩

theorem IsMultiple.value_nonneg {k : ℕ} {x : Float} (h : IsMultiple k x) : 0 ≤ value x := by
  obtain ⟨-, n, hn⟩ := h
  rw [hn]
  positivity

theorem foldl_add_exact {k : ℕ} (hk : k ≤ 1074) {xs : List Float} {s : Float}
    (h : ∀ x ∈ xs, IsMultiple k x) (hs : IsMultiple k s)
    (small : value s + (xs.map value).sum ≤ 2 ^ 53 / 2 ^ k) :
    IsMultiple k (xs.foldl (· + ·) s) ∧
      value (xs.foldl (· + ·) s) = value s + (xs.map value).sum := by
  induction xs generalizing s with
  | nil => exact ⟨hs, by simp⟩
  | cons x xs ih =>
    rw [List.forall_mem_cons] at h
    rw [List.map_cons, List.sum_cons, ← add_assoc] at small ⊢
    have rest : 0 ≤ (xs.map value).sum := by
      refine List.sum_nonneg fun q hq => ?_
      obtain ⟨y, hy, rfl⟩ := List.mem_map.1 hq
      exact (h.2 y hy).value_nonneg
    obtain ⟨multiple, sum⟩ := add_exact hk hs h.1 (by linarith)
    rw [← sum] at small ⊢
    exact ih h.2 multiple small

/-! ## Lossy sums -/

/-- Whether a number is near to what it stands for: it has lost no more than in so many steps. -/
structure Near (steps : ℕ) (q : ℚ) (x : Float) : Prop where
  isFinite : x.isFinite = true
  low : q * (1 - 1 / 2 ^ 53) ^ steps ≤ value x
  high : value x ≤ q * (1 + 1 / 2 ^ 53) ^ steps

theorem near_self {x : Float} (h : x.isFinite = true) : Near 0 (value x) x :=
  ⟨h, by simp, by simp⟩

theorem Near.mono {n n' : ℕ} (le : n ≤ n') {q : ℚ} (hq : 0 ≤ q) {x : Float} (h : Near n q x) :
    Near n' q x where
  isFinite := h.isFinite
  low := (mul_le_mul_of_nonneg_left (pow_le_pow_of_le_one (by norm_num) (by norm_num) le) hq).trans
    h.low
  high := h.high.trans
    (mul_le_mul_of_nonneg_left (pow_le_pow_right₀ (by norm_num) le) hq)

theorem Near.value_nonneg {n : ℕ} {q : ℚ} (hq : 0 ≤ q) {x : Float} (h : Near n q x) :
    0 ≤ value x :=
  (mul_nonneg hq (pow_nonneg (by norm_num) n)).trans h.low

theorem Near.add {n : ℕ} {p q : ℚ} (hp : 0 ≤ p) (hq : 0 ≤ q) {x y : Float} (hx : Near n p x)
    (hy : Near n q y) (small : (p + q) * (1 + 1 / 2 ^ 53) ^ (n + 1) < 2 ^ 1024) :
    Near (n + 1) (p + q) (x + y) := by
  have nonneg : 0 ≤ value x + value y := add_nonneg (hx.value_nonneg hp) (hy.value_nonneg hq)
  obtain ⟨_, digits⟩ := exists_value_add_eq x y
  obtain ⟨loss, gain⟩ := abs_le.1 (abs_rounded_sub_le digits)
  rw [abs_of_nonneg nonneg] at loss gain
  have low : (p + q) * (1 - 1 / 2 ^ 53) ^ (n + 1) ≤ rounded (value x + value y) :=
    calc
      (p + q) * (1 - 1 / 2 ^ 53) ^ (n + 1)
        = (p * (1 - 1 / 2 ^ 53) ^ n + q * (1 - 1 / 2 ^ 53) ^ n) * (1 - 1 / 2 ^ 53) := by ring
      _ ≤ (value x + value y) * (1 - 1 / 2 ^ 53) :=
        mul_le_mul_of_nonneg_right (add_le_add hx.low hy.low) (by norm_num)
      _ ≤ rounded (value x + value y) := by linarith
  have high : rounded (value x + value y) ≤ (p + q) * (1 + 1 / 2 ^ 53) ^ (n + 1) :=
    calc
      rounded (value x + value y) ≤ (value x + value y) * (1 + 1 / 2 ^ 53) := by linarith
      _ ≤ (p * (1 + 1 / 2 ^ 53) ^ n + q * (1 + 1 / 2 ^ 53) ^ n) * (1 + 1 / 2 ^ 53) :=
        mul_le_mul_of_nonneg_right (add_le_add hx.high hy.high) (by norm_num)
      _ = (p + q) * (1 + 1 / 2 ^ 53) ^ (n + 1) := by ring
  obtain ⟨finite, hv⟩ := (isRounded_add hx.isFinite hy.isFinite).finite
    (by rw [abs_of_nonneg (rounded_nonneg nonneg)]; exact high.trans_lt small)
  exact ⟨finite, hv ▸ low, hv ▸ high⟩

theorem near_foldl_add {n : ℕ} {qs : List ℚ} {xs : List Float} (h : List.Forall₂ (Near n) qs xs)
    (hqs : ∀ q ∈ qs, 0 ≤ q) {i : ℕ} {p : ℚ} {s : Float} (hp : 0 ≤ p) (hs : Near (n + i) p s)
    (small : (p + qs.sum) * (1 + 1 / 2 ^ 53) ^ (n + i + xs.length) < 2 ^ 1024) :
    Near (n + i + xs.length) (p + qs.sum) (xs.foldl (· + ·) s) := by
  induction h generalizing i p s with
  | nil => simpa using hs
  | @cons q x qs xs hqx _ ih =>
    rw [List.forall_mem_cons] at hqs
    have rest : 0 ≤ qs.sum := List.sum_nonneg hqs.2
    rw [List.sum_cons, ← add_assoc, List.length_cons] at small ⊢
    rw [show n + i + (xs.length + 1) = n + (i + 1) + xs.length by ring] at small ⊢
    refine ih hqs.2 (add_nonneg hp hqs.1) (hs.add hp hqs.1 (hqx.mono (by omega) hqs.1) ?_) small
    refine lt_of_le_of_lt (mul_le_mul (by linarith) ?_ (by positivity) ?_) small
    · exact pow_le_pow_right₀ (by norm_num) (by omega)
    · exact add_nonneg (add_nonneg hp hqs.1) rest

end Decimal

open Decimal

/-- A total of multiples of a unit is exact if there is room for it. -/
theorem total_exact {k : ℕ} (hk : k ≤ 1074) {xs : List Float} (h : ∀ x ∈ xs, IsMultiple k x)
    (small : (xs.map value).sum ≤ 2 ^ 53 / 2 ^ k) :
    IsMultiple k (total xs) ∧ value (total xs) = (xs.map value).sum := by
  have zero : IsMultiple k 0.0 := ⟨isFinite_zero, 0, by simp [value_zero]⟩
  have sum := foldl_add_exact hk h zero (by rwa [value_zero, zero_add])
  rwa [value_zero, zero_add] at sum

theorem not_isZero_negative_total (xs : List Float) : ¬ IsZero .negative (total xs) := by
  have fold {s : Float} (hs : ¬ IsZero .negative s) : ¬ IsZero .negative (xs.foldl (· + ·) s) := by
    induction xs generalizing s with
    | nil => exact hs
    | cons x xs ih => exact ih (not_isZero_negative_add hs)
  exact fold (mt isZero_iff.1 (by decide +kernel))

/-- Totals of multiples of a unit are known by their sums. -/
theorem total_eq_total {k : ℕ} (hk : k ≤ 1074) {xs ys : List Float}
    (hx : ∀ x ∈ xs, IsMultiple k x) (hy : ∀ y ∈ ys, IsMultiple k y)
    (small : (xs.map value).sum ≤ 2 ^ 53 / 2 ^ k) (same : (xs.map value).sum = (ys.map value).sum) :
    total xs = total ys := by
  obtain ⟨⟨fx, -⟩, vx⟩ := total_exact hk hx small
  obtain ⟨⟨fy, -⟩, vy⟩ := total_exact hk hy (same ▸ small)
  exact eq_of_value_eq fx fy (not_isZero_negative_total xs) (not_isZero_negative_total ys)
    (vx.trans (same.trans vy.symm))

/-- A total loses no more than each of its summands and one rounding for each of them. -/
theorem near_total {n : ℕ} {qs : List ℚ} {xs : List Float} (h : List.Forall₂ (Near n) qs xs)
    (hqs : ∀ q ∈ qs, 0 ≤ q) (small : qs.sum * (1 + 1 / 2 ^ 53) ^ (n + xs.length) < 2 ^ 1024) :
    Near (n + xs.length) qs.sum (total xs) := by
  have zero : Near (n + 0) 0 0.0 := by
    have := near_self isFinite_zero
    rw [value_zero] at this
    exact this.mono (Nat.zero_le _) le_rfl
  have sum := near_foldl_add h hqs le_rfl zero (by rwa [zero_add, add_zero])
  rwa [zero_add, add_zero] at sum

end Worklog
