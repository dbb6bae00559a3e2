import Worklog.Proofs.Decimal.Sums

/-!
# Numbers within bounds

An exact result that lies within a bound that there is room for is rounded to a number within that
bound (`IsRounded.within`). So the total of as many numbers as there are whole ones of 53 digits
lies within as many times the bound of each (`within_foldl_add`). If amounts are within a multiple
of some hours, which is a power of two, then so are their totals (`Dominates.foldl_add`): rounding
does not change by how much one exceeds the other. A quotient by what is not too small is within
bounds too (`within_div`).
-/

namespace Worklog.Decimal

open Float.Model UnpackedFloat

/-- Whether a number is finite and within a bound. -/
def Within (g : ℚ) (x : Float) : Prop :=
  x.isFinite = true ∧ |value x| ≤ g

theorem Within.mono {g g' : ℚ} (h : g ≤ g') {x : Float} (hx : Within g x) : Within g' x :=
  ⟨hx.1, hx.2.trans h⟩

theorem within_zero {g : ℚ} (h : 0 ≤ g) : Within g 0.0 :=
  ⟨isFinite_zero, by rwa [value_zero, abs_zero]⟩

/-- A result within a bound that there is room for is not rounded beyond it. -/
theorem IsRounded.within {x : Float} {q g : ℚ} (h : IsRounded x q) (hg : OnGrid g)
    (small : g < 2 ^ 1024) (hq : |q| ≤ g) : Within g x := by
  have bound : |rounded q| ≤ g := (abs_rounded_le hq).trans_eq (rounded_of_onGrid hg)
  obtain ⟨finite, hv⟩ := h.finite (bound.trans_lt small)
  exact ⟨finite, hv ▸ bound⟩

theorem onGrid_two_pow (k : ℕ) : OnGrid (2 ^ k) := by
  have := onGrid_zpow (show -1074 ≤ (k : ℤ) by omega)
  rwa [zpow_natCast] at this

theorem onGrid_mul_two_pow {n : ℕ} (hn : n ≤ 2 ^ 53) (a : ℕ) : OnGrid (n * 2 ^ a) := by
  have := (onGrid_div (Nat.zero_le 1074) hn).mul_two_pow a
  rwa [pow_zero, div_one] at this

theorem two_pow_lt {k : ℕ} (h : k ≤ 1023) : (2 : ℚ) ^ k < 2 ^ 1024 :=
  pow_lt_pow_right₀ one_lt_two (by omega)

theorem mul_two_pow_nonneg (n a : ℕ) : (0 : ℚ) ≤ n * 2 ^ a := by
  positivity

theorem le_mul_two_pow {q : ℚ} (hq : 0 ≤ q) (b : ℕ) : q ≤ q * 2 ^ b :=
  le_mul_of_one_le_right hq (one_le_pow₀ one_le_two)

theorem mul_two_pow_le_mul_two_pow {p q : ℚ} (h : p ≤ q) (b : ℕ) : p * 2 ^ b ≤ q * 2 ^ b :=
  mul_le_mul_of_nonneg_right h (pow_nonneg zero_le_two b)

/-! ## Sums -/

section Sums

variable {a n : ℕ} (count : n ≤ 2 ^ 53) (small : (n : ℚ) * 2 ^ a < 2 ^ 1024)
include count small

theorem within_add {i j : ℕ} (within : i + j ≤ n) {x y : Float} (hx : Within (i * 2 ^ a) x)
    (hy : Within (j * 2 ^ a) y) : Within ((i + j : ℕ) * 2 ^ a) (x + y) := by
  have most : ((i + j : ℕ) : ℚ) * 2 ^ a ≤ n * 2 ^ a :=
    mul_two_pow_le_mul_two_pow (Nat.cast_le.2 within) a
  refine (isRounded_add hx.1 hy.1).within (onGrid_mul_two_pow (within.trans count) a)
    (most.trans_lt small) ?_
  calc
    |value x + value y| ≤ |value x| + |value y| := abs_add_le ..
    _ ≤ i * 2 ^ a + j * 2 ^ a := add_le_add hx.2 hy.2
    _ = (i + j : ℕ) * 2 ^ a := by
      push_cast
      ring

theorem within_foldl_add {xs : List Float} (h : ∀ x ∈ xs, Within (2 ^ a) x) {i : ℕ}
    (within : i + xs.length ≤ n) {s : Float} (hs : Within (i * 2 ^ a) s) :
    Within ((i + xs.length : ℕ) * 2 ^ a) (xs.foldl (· + ·) s) := by
  induction xs generalizing i s with
  | nil => exact hs
  | cons x xs ih =>
    rw [List.forall_mem_cons] at h
    rw [List.length_cons] at within ⊢
    have first : Within ((1 : ℕ) * 2 ^ a) x := by
      rw [Nat.cast_one, one_mul]
      exact h.1
    have sum := within_add count small (by omega) hs first
    have rest := ih h.2 (by omega) sum
    rwa [show i + (xs.length + 1) = i + 1 + xs.length by omega]

end Sums

/-- A difference of numbers that are not negative is no larger than one of them. -/
theorem isFinite_sub {x y : Float} (hx : 0.0 ≤ x) (hy : 0.0 ≤ y) (fx : x.isFinite = true)
    (fy : y.isFinite = true) : (x - y).isFinite = true := by
  have vx := value_nonneg hx
  have vy := value_nonneg hy
  have difference := isRounded_sub fx fy
  rcases le_total (value x) (value y) with le | le
  · refine (difference.within (onGrid_value y) ((le_abs_self _).trans_lt (abs_value_lt fy)) ?_).1
    rw [abs_le]
    constructor <;> linarith
  · refine (difference.within (onGrid_value x) ((le_abs_self _).trans_lt (abs_value_lt fx)) ?_).1
    rw [abs_le]
    constructor <;> linarith

/-! ## Multiples -/

/-- Whether an amount is no larger than hours times a power of two. -/
structure Dominates (b : ℕ) (x y : Float) : Prop where
  isFinite : x.isFinite = true
  isFinite' : y.isFinite = true
  le : |value y| ≤ value x * 2 ^ b

theorem Dominates.add {b : ℕ} {x x' y y' : Float} (h : Dominates b x y) (h' : Dominates b x' y')
    (finite : (x + x').isFinite = true) (small : value (x + x') * 2 ^ b < 2 ^ 1024) :
    Dominates b (x + x') (y + y') := by
  obtain ⟨_, digits⟩ := exists_value_add_eq x x'
  have amount : |value y + value y'| ≤ (value x + value x') * 2 ^ b := by
    rw [add_mul]
    exact (abs_add_le ..).trans (add_le_add h.le h'.le)
  have bound : |rounded (value y + value y')| ≤ value (x + x') * 2 ^ b := by
    rw [(isRounded_add h.isFinite h'.isFinite).value_eq finite, ← rounded_mul_two_pow digits]
    exact abs_rounded_le amount
  obtain ⟨finite', hv⟩ := (isRounded_add h.isFinite' h'.isFinite').finite (bound.trans_lt small)
  exact ⟨finite, finite', hv ▸ bound⟩

/-- A product with what is within a power of two is no larger than the other factor times that. -/
theorem dominates_mul {b : ℕ} {x r : Float} (hx : 0.0 ≤ x) (finite : x.isFinite = true)
    (hr : Within (2 ^ b) r) (small : value x * 2 ^ b < 2 ^ 1024) : Dominates b x (x * r) := by
  have nonneg := value_nonneg hx
  have product := (isRounded_mul finite hr.1).within ((onGrid_value x).mul_two_pow b) small (by
    rw [abs_mul, abs_of_nonneg nonneg]
    exact mul_le_mul_of_nonneg_left hr.2 nonneg)
  exact ⟨finite, product.1, product.2⟩

theorem Dominates.foldl_add {a b n : ℕ} (count : n ≤ 2 ^ 53)
    (small : (n : ℚ) * 2 ^ a * 2 ^ b < 2 ^ 1024) {α : Type} {f g : α → Float} {as : List α}
    (h : ∀ x ∈ as, Within (2 ^ a) (f x) ∧ Dominates b (f x) (g x)) {i : ℕ}
    (within : i + as.length ≤ n) {s t : Float} (hs : Within (i * 2 ^ a) s)
    (hst : Dominates b s t) :
    Dominates b ((as.map f).foldl (· + ·) s) ((as.map g).foldl (· + ·) t) := by
  induction as generalizing i s t with
  | nil => exact hst
  | cons x as ih =>
    rw [List.forall_mem_cons] at h
    rw [List.length_cons] at within
    have small' : (n : ℚ) * 2 ^ a < 2 ^ 1024 :=
      (le_mul_two_pow (mul_two_pow_nonneg n a) b).trans_lt small
    have first : Within ((1 : ℕ) * 2 ^ a) (f x) := by
      rw [Nat.cast_one, one_mul]
      exact h.1.1
    have sum := within_add count small' (by omega) hs first
    have most : ((i + 1 : ℕ) : ℚ) * 2 ^ a ≤ n * 2 ^ a :=
      mul_two_pow_le_mul_two_pow (Nat.cast_le.2 (by omega)) a
    have hours : value (s + f x) ≤ n * 2 ^ a := ((le_abs_self _).trans sum.2).trans most
    exact ih h.2 (by omega) sum
      (hst.add h.1.2 sum.1 ((mul_two_pow_le_mul_two_pow hours b).trans_lt small))

/-! ## Quotients -/

/-- Whether a number is not small: infinite, or not below a power of a half. -/
def AtLeast (s : ℕ) (x : Float) : Prop :=
  IsInfinite x ∨ x.isFinite = true ∧ 1 / 2 ^ s ≤ value x

theorem AtLeast.of_le {s : ℕ} {x y : Float} (h : AtLeast s x) (le : x ≤ y) : AtLeast s y := by
  rcases h with infinite | ⟨fx, low⟩
  · exact .inl (infinite.of_le le)
  · have nonneg : 0.0 ≤ x := nonneg_iff.2 (.inl ⟨fx, low.trans' (by positivity)⟩)
    rcases nonneg_iff.1 (le_of_le_of_le (isNaN_of_isFinite isFinite_zero) nonneg le) with
      ⟨fy, -⟩ | infinite
    · exact .inr ⟨fy, low.trans ((le_iff_value_le fx fy).1 le)⟩
    · exact .inl infinite

theorem AtLeast.pos {s : ℕ} {x : Float} (h : AtLeast s x) : 0.0 < x := by
  rcases h with infinite | ⟨fx, low⟩
  · exact pos_iff.2 (.inl infinite)
  · rw [lt_iff_value_lt isFinite_zero fx, value_zero]
    exact low.trans_lt' (by positivity)

/-- What is not small stays so when it is taken at least once. -/
theorem AtLeast.mul {s : ℕ} (hs : s ≤ 1074) {x y : Float} (fx : x.isFinite = true)
    (hx : 1 ≤ value x) (hy : AtLeast s y) : AtLeast s (x * y) := by
  rcases hy with infinite | ⟨fy, low⟩
  · refine .inl (isInfinite_ofModel ?_)
    have pos : 0.0 < x := by
      rw [lt_iff_value_lt isFinite_zero fx, value_zero]
      linarith
    rcases pos_iff.1 pos with ix | ⟨m, e, hm, hu⟩
    · rw [ix, infinite]
      rfl
    · rw [hu, infinite]
      rfl
  · have least : OnGrid (1 / 2 ^ s) := by
      have := onGrid_zpow (show -1074 ≤ (-s : ℤ) by omega)
      rwa [zpow_neg, zpow_natCast, ← one_div] at this
    have unit : (0 : ℚ) ≤ 1 / 2 ^ s := by positivity
    have product : 1 / 2 ^ s ≤ value x * value y :=
      low.trans (le_mul_of_one_le_left (unit.trans low) hx)
    refine ((isRounded_mul fx fy).finite_or_isInfinite (unit.trans product)).symm.imp_right ?_
    refine And.imp_right fun hv => ?_
    calc
      1 / 2 ^ s = rounded (1 / 2 ^ s) := (rounded_of_onGrid least).symm
      _ ≤ rounded (_ * _) := rounded_mono product
      _ = _ := hv.symm

/-- A quotient by what is not small is within bounds. -/
theorem within_div {k s : ℕ} (small : k + s ≤ 1023) {x y : Float} (hx : Within (2 ^ k) x)
    (hy : AtLeast s y) : Within (2 ^ (k + s)) (x / y) := by
  rcases hy with infinite | ⟨finite, low⟩
  · obtain ⟨_, zero⟩ := exists_isZero_div hx.1 infinite
    refine ⟨isFinite_of_isZero zero, ?_⟩
    rw [value_of_isZero zero, abs_zero]
    positivity
  · have pos : 0 < value y := lt_of_lt_of_le (by positivity) low
    refine (isRounded_div hx.1 finite pos.ne').within (onGrid_two_pow _) (two_pow_lt small) ?_
    rw [abs_div, abs_of_pos pos, div_le_iff₀ pos]
    rw [one_div, inv_le_iff_one_le_mul₀ (by positivity)] at low
    calc
      |value x| ≤ 2 ^ k := hx.2
      _ ≤ 2 ^ k * (2 ^ s * value y) := le_mul_of_one_le_right (by positivity) (by linarith)
      _ = 2 ^ (k + s) * value y := by rw [pow_add, mul_assoc]

end Worklog.Decimal
