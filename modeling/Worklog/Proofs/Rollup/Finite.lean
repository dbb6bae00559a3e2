import Worklog.Proofs.Decimal.Bounded
import Worklog.Proofs.Rollup.Agreement
import Worklog.Proofs.Rollup.Growth
import Worklog.Proofs.Rollup.Trend
import Worklog.Report

/-!
# When figures are finite

Every ratio of a report is guarded against a zero denominator, but hours may be infinite, and sums
and products of finite ones may be, so that a report may have figures that are infinite or no
numbers at all (`Report.exists_not_finite`).

They are all finite if the entries and the settings are moderate (`Report.isFinite_of_moderate`):
hours and rates are not too large for so many entries, and working days and budgets are not too
small. The bounds are powers of two, since those are kept by rounding.
-/

namespace Worklog

open Decimal

/-! ## The figures of a report -/

/-- The numbers among the figures against a budget. -/
def BudgetFigures.numbers (f : BudgetFigures) : List Float :=
  f.progress.toList ++ f.remaining.toList

/-- The numbers of a month. -/
def Month.numbers (m : Month) : List Float :=
  [m.hours, m.invoiced, m.utilization, m.rate, m.cumulativeHours] ++ m.budget.toList ++
    m.tracked.numbers

/-- The numbers of a trend. -/
def Trend.numbers (t : Trend) : List Float :=
  t.hours ++ t.utilization ++ t.invoiced

/-- The numbers of a summary. -/
def Summary.numbers (s : Summary) : List Float :=
  [s.totalHours, s.totalInvoiced, s.utilization] ++ s.budget.toList ++ s.tracked.numbers

/-- The numbers that a report derives from its entries. -/
def Report.numbers (r : Report) : List Float :=
  r.months.flatMap Month.numbers ++ r.trend.numbers ++
    [r.summary, r.yearSummary, r.allTimeSummary].flatMap Summary.numbers

/-! ## Moderate entries -/

/--
Entries and settings within bounds: hours are at most `2 ^ a`, rates at most `2 ^ b`, there are no
more than `2 ^ c` entries, and neither working days nor a budget are shorter than `2 ^ -s` hours.
-/
structure Moderate (a b c s : ℕ) (settings : Settings) (entries : List Entry) : Prop where
  hours : ∀ e ∈ entries, Within (2 ^ a) e.hours
  rates : ∀ e ∈ entries, ∀ r ∈ e.rate, Within (2 ^ b) r
  count : entries.length ≤ 2 ^ c
  workday : AtLeast s settings.hoursPerWorkday
  budget : ∀ h ∈ settings.budget, h.isFinite = true ∧ AtLeast s h
  digits : c ≤ 53
  amounts : a + b + c ≤ 1023
  ratios : a + c + s ≤ 1023

namespace Moderate

variable {a b c s : ℕ} {settings : Settings} {entries : List Entry}
  (h : Moderate a b c s settings entries)
include h

theorem of_subset {es : List Entry} (subset : ∀ e ∈ es, e ∈ entries)
    (length : es.length ≤ entries.length) : Moderate a b c s settings es :=
  { h with
    hours := fun e he => h.hours e (subset e he)
    rates := fun e he => h.rates e (subset e he)
    count := length.trans h.count }

theorem count_le : entries.length ≤ 2 ^ 53 :=
  h.count.trans (Nat.pow_le_pow_right two_pos h.digits)

theorem hours_le : (entries.length : ℚ) * 2 ^ a ≤ 2 ^ (a + c) := by
  have count : (entries.length : ℚ) ≤ 2 ^ c := by exact_mod_cast h.count
  rw [add_comm, pow_add]
  exact mul_two_pow_le_mul_two_pow count a

theorem amounts_lt : (entries.length : ℚ) * 2 ^ a * 2 ^ b < 2 ^ 1024 := by
  refine (mul_two_pow_le_mul_two_pow h.hours_le b).trans_lt ?_
  rw [← pow_add]
  have := h.amounts
  exact two_pow_lt (by omega)

theorem hours_lt : (entries.length : ℚ) * 2 ^ a < 2 ^ 1024 :=
  (le_mul_two_pow (mul_two_pow_nonneg ..) b).trans_lt h.amounts_lt

/-! ### Totals -/

theorem within_totalHours : Within (entries.length * 2 ^ a) (totalHours entries) := by
  have start : Within ((0 : ℕ) * 2 ^ a) 0.0 := within_zero (mul_two_pow_nonneg 0 a)
  have sum := within_foldl_add h.count_le h.hours_lt (List.forall_mem_map.2 h.hours)
    (by rw [List.length_map, zero_add]) start
  rwa [List.length_map, zero_add] at sum

theorem within_rateOrZero {e : Entry} (he : e ∈ entries) : Within (2 ^ b) (rateOrZero e.rate) := by
  have zero : Within (2 ^ b) 0.0 := within_zero (by positivity)
  unfold rateOrZero
  split
  · exact zero
  · rename_i r hr
    split
    · exact zero
    · exact h.rates e he r hr

theorem dominates_invoiced {e : Entry} (he : e ∈ entries) : Dominates b e.hours e.invoiced := by
  obtain ⟨finite, bound⟩ := h.hours e he
  refine dominates_mul e.hours_nonneg finite (h.within_rateOrZero he) ?_
  have one : (1 : ℚ) ≤ entries.length := by exact_mod_cast List.length_pos_of_mem he
  have hours : value e.hours ≤ entries.length * 2 ^ a :=
    ((le_abs_self _).trans bound).trans (le_mul_of_one_le_left (pow_nonneg zero_le_two a) one)
  exact (mul_two_pow_le_mul_two_pow hours b).trans_lt h.amounts_lt

theorem dominates_total : Dominates b (totalHours entries) (totalInvoiced entries) := by
  have start : Within ((0 : ℕ) * 2 ^ a) 0.0 := within_zero (mul_two_pow_nonneg 0 a)
  have zero : Dominates b 0.0 0.0 := ⟨isFinite_zero, isFinite_zero, by simp [value_zero]⟩
  exact Dominates.foldl_add h.count_le h.amounts_lt
    (fun e he => ⟨h.hours e he, h.dominates_invoiced he⟩) (zero_add _).le start zero

theorem finite_totalInvoiced : (totalInvoiced entries).isFinite = true :=
  h.dominates_total.isFinite'

theorem finite_rate : (ratio (totalInvoiced entries) (totalHours entries)).isFinite = true := by
  obtain ⟨fh, fi, le⟩ := h.dominates_total
  unfold ratio
  split
  · rename_i pos
    have pos : 0 < value (totalHours entries) := by
      rwa [gt_iff_lt, lt_iff_value_lt isFinite_zero fh, value_zero] at pos
    have := h.amounts
    refine ((isRounded_div fi fh pos.ne').within (onGrid_two_pow b) (two_pow_lt (by omega)) ?_).1
    rwa [abs_div, abs_of_pos pos, div_le_iff₀ pos, mul_comm]
  · exact isFinite_zero

/-! ### Ratios -/

variable {used : Float} (hu : Within (2 ^ (a + c)) used)
include hu

theorem finite_ratio {target : Float} (ht : AtLeast s target) :
    (ratio used target).isFinite = true := by
  rw [ratio, if_pos ht.pos]
  exact (within_div h.ratios hu ht).1

theorem finite_budgetFigures (nonneg : 0.0 ≤ used) :
    ∀ x ∈ (budgetFigures used settings.budget).numbers, x.isFinite = true := by
  unfold budgetFigures
  split
  · nofun
  · rename_i hours hb
    split
    · nofun
    · obtain ⟨finite, low⟩ := h.budget hours hb
      have hours_nonneg : 0.0 ≤ hours := nonneg_of_pos low.pos
      intro x hx
      rcases List.mem_pair.1 hx with rfl | rfl
      · exact (within_div h.ratios hu low).1
      · exact isFinite_sub hours_nonneg nonneg finite hu.1

end Moderate

/-! ## Targets -/

theorem Decimal.one_le_value_ofInt {n : ℕ} (low : 1 ≤ n) (high : n ≤ 31) :
    (ofInt n).isFinite = true ∧ 1 ≤ value (ofInt n) := by
  have all : ∀ n : ℕ, n < 32 → 1 ≤ n → (ofInt n).isFinite = true ∧ 1.0 ≤ ofInt n := by
    decide +kernel
  obtain ⟨finite, le⟩ := all n (by omega) low
  have unit : whole? 1.0 = some 1 := by decide +kernel
  obtain ⟨one, hv⟩ := value_of_whole? unit
  rw [le_iff_value_le one finite, hv, Int.cast_one] at le
  exact ⟨finite, le⟩

namespace MonthKey

theorem atLeast_target {s : ℕ} (hs : s ≤ 1074) {hoursPerWorkday : Float}
    (h : AtLeast s hoursPerWorkday) (k : MonthKey) : AtLeast s (k.target hoursPerWorkday) := by
  obtain ⟨finite, one⟩ := one_le_value_ofInt (Date.one_le_workingDays k.year k.month)
    (Date.workingDays_le ..)
  exact AtLeast.mul hs finite one h

/-- The target of months together is not small, if there is a month. -/
theorem atLeast_targetOfMonths {s : ℕ} (hs : s ≤ 1074) {hoursPerWorkday : Float}
    (h : AtLeast s hoursPerWorkday) {keys : List MonthKey} {k : MonthKey} (hk : k ∈ keys) :
    AtLeast s (targetOfMonths keys hoursPerWorkday) := by
  refine (atLeast_target hs h k).of_le (le_total_of_mem ?_ (List.mem_map_of_mem hk))
  exact List.forall_mem_map.2 fun k' _ => nonneg_of_pos (atLeast_target hs h k').pos

end MonthKey

/-! ## Rollups -/

namespace Moderate

variable {a b c s : ℕ} {settings : Settings} {entries : List Entry}
  (h : Moderate a b c s settings entries)
include h

theorem place_le : s ≤ 1074 := by
  have := h.ratios
  omega

theorem inMonth (k : MonthKey) : Moderate a b c s settings (inMonth k entries) :=
  h.of_subset (fun _ he => List.mem_of_mem_filter he) (List.length_filter_le ..)

theorem within_used : Within (2 ^ (a + c)) (totalHours entries) :=
  h.within_totalHours.mono h.hours_le

theorem finite_budget : ∀ x ∈ settings.budget.toList, x.isFinite = true := by
  intro x hx
  exact (h.budget x (Option.mem_toList.1 hx)).1

/-- A month keeps its bounds if the hours before it and its own are part of all hours. -/
theorem finite_ofBucket {before : Float} {i : ℕ} (hb : Within (i * 2 ^ a) before)
    (nonneg : 0.0 ≤ before) (k : MonthKey)
    (within : i + (Worklog.inMonth k entries).length ≤ entries.length) :
    let m := Month.ofBucket settings before k (Worklog.inMonth k entries)
    Within ((i + (Worklog.inMonth k entries).length : ℕ) * 2 ^ a) m.cumulativeHours ∧
      ∀ x ∈ m.numbers, x.isFinite = true := by
  intro m
  have bucket := h.inMonth k
  have cumulative : Within ((i + (Worklog.inMonth k entries).length : ℕ) * 2 ^ a)
      m.cumulativeHours :=
    within_add h.count_le h.hours_lt within hb bucket.within_totalHours
  have used : Within (2 ^ (a + c)) m.cumulativeHours :=
    cumulative.mono ((mul_two_pow_le_mul_two_pow (Nat.cast_le.2 within) a).trans h.hours_le)
  have target := MonthKey.atLeast_target h.place_le h.workday k
  refine ⟨cumulative, ?_⟩
  simp only [Month.numbers, List.forall_mem_append, List.forall_mem_cons, List.not_mem_nil,
    false_imp_iff, implies_true, and_true]
  refine ⟨⟨⟨bucket.within_totalHours.1, bucket.finite_totalInvoiced,
    bucket.finite_ratio bucket.within_used target, bucket.finite_rate, cumulative.1⟩,
    h.finite_budget⟩, h.finite_budgetFigures used ?_⟩
  exact zero_le_add nonneg (totalHours_nonneg _)

theorem finite_accumulate {before : Float} {i : ℕ} (hb : Within (i * 2 ^ a) before)
    (nonneg : 0.0 ≤ before) {keys : List MonthKey}
    (within : i + (keys.map fun k => (Worklog.inMonth k entries).length).sum ≤ entries.length) :
    ∀ m ∈ Month.accumulate settings entries before keys, ∀ x ∈ m.numbers, x.isFinite = true := by
  induction keys generalizing before i with
  | nil => nofun
  | cons k keys ih =>
    rw [List.map_cons, List.sum_cons, ← add_assoc] at within
    obtain ⟨cumulative, first⟩ := h.finite_ofBucket hb nonneg k (by omega)
    refine List.forall_mem_cons.2 ⟨first, ih cumulative ?_ within⟩
    exact zero_le_add nonneg (totalHours_nonneg _)

theorem finite_months :
    ∀ m ∈ Month.ofEntries settings entries, ∀ x ∈ m.numbers, x.isFinite = true := by
  have perm := Sorting.sort_perm MonthKey.isBefore (MonthKey.ofEntries entries)
  have lengths : ((Sorting.sort MonthKey.isBefore (MonthKey.ofEntries entries)).map
      fun k => (Worklog.inMonth k entries).length).sum = entries.length := by
    have shared := sum_map_inMonth (fun _ => 1) perm
    simpa only [List.map_const', List.sum_replicate, smul_eq_mul, mul_one] using shared
  have start : Within ((0 : ℕ) * 2 ^ a) 0.0 := within_zero (mul_two_pow_nonneg 0 a)
  exact h.finite_accumulate start (by decide +kernel) (by rw [lengths, zero_add])

theorem finite_summary : ∀ x ∈ (Summary.ofEntries settings entries).numbers,
    x.isFinite = true := by
  have utilization : (ratio (totalHours entries) (targetOfMonths (MonthKey.setOfEntries entries)
      settings.hoursPerWorkday)).isFinite = true := by
    rcases eq_or_ne (MonthKey.setOfEntries entries) [] with empty | nonempty
    · have guard : ¬ (total [] : Float) > 0.0 := by decide +kernel
      rw [empty, targetOfMonths, List.map_nil, ratio, if_neg guard]
      exact isFinite_zero
    · obtain ⟨k, hk⟩ := List.exists_mem_of_ne_nil _ nonempty
      exact h.finite_ratio h.within_used (MonthKey.atLeast_targetOfMonths h.place_le h.workday hk)
  simp only [Summary.numbers, List.forall_mem_append, List.forall_mem_cons, List.not_mem_nil,
    false_imp_iff, implies_true, and_true]
  exact ⟨⟨⟨h.within_totalHours.1, h.finite_totalInvoiced, utilization⟩, h.finite_budget⟩,
    h.finite_budgetFigures h.within_used (totalHours_nonneg entries)⟩

end Moderate

/-- The numbers of a trend are those of its months. -/
theorem Trend.exists_of_mem_numbers {limit : Option Int} {months : List Month} {x : Float}
    (h : x ∈ (ofMonths limit months).numbers) : ∃ m ∈ months, x ∈ m.numbers := by
  have month {m : Month} (hm : m ∈ lastOf limit (Sorting.sort Month.isBefore months)) :
      m ∈ months := (Sorting.sort_perm Month.isBefore months).mem_iff.1 ((lastOf_suffix ..).mem hm)
  simp only [numbers, ofMonths, List.mem_append, List.mem_map] at h
  rcases h with (⟨m, hm, rfl⟩ | ⟨m, hm, rfl⟩) | ⟨m, hm, rfl⟩
  · exact ⟨m, month hm, by simp [Month.numbers]⟩
  · exact ⟨m, month hm, by simp [Month.numbers]⟩
  · exact ⟨m, month hm, by simp [Month.numbers]⟩

namespace Report

/-- All numbers in a report on moderate entries are finite. -/
theorem isFinite_of_moderate {a b c s : ℕ} {settings : Settings} {entries : List Entry}
    (h : Moderate a b c s settings entries) (trendLength : Option Nat) (today : Date) :
    ∀ x ∈ (ofEntries settings trendLength today entries).numbers, x.isFinite = true := by
  have perm := Sorting.sort_perm Entry.isBefore entries
  have ordered : Moderate a b c s settings (Sorting.sort Entry.isBefore entries) :=
    h.of_subset (fun _ he => perm.mem_iff.1 he) perm.length_eq.le
  have year : Moderate a b c s settings ((Sorting.sort Entry.isBefore entries).filter
      fun e => e.date.year == today.year) :=
    ordered.of_subset (fun _ he => List.mem_of_mem_filter he) (List.length_filter_le ..)
  simp only [numbers, List.forall_mem_append, List.forall_mem_flatMap, List.forall_mem_cons,
    List.not_mem_nil, false_imp_iff, implies_true, and_true]
  refine ⟨⟨ordered.finite_months, fun x hx => ?_⟩, ordered.finite_summary, year.finite_summary,
    ordered.finite_summary⟩
  obtain ⟨m, hm, hx⟩ := Trend.exists_of_mem_numbers hx
  exact ordered.finite_months m hm x hx

section Examples

/-- A report on seven hours in July and six in August has no number that is not finite. -/
theorem isFinite_of_moderate_workday :
    let entries : List Entry :=
      [{ spent lateJuly 7.0 (by decide +kernel) with rate := some 75.0 },
        { spent Plan.lateAugust 6.0 (by decide +kernel) with rate := some 75.0 }]
    (ofEntries tenHours none Plan.lateAugust entries).months.length = 2 ∧
      ∀ x ∈ (ofEntries tenHours none Plan.lateAugust entries).numbers, x.isFinite = true := by
  intro entries
  refine ⟨by decide +kernel, ?_⟩
  have whole : whole? 7.0 = some 7 ∧ whole? 6.0 = some 6 ∧ whole? 75.0 = some 75 ∧
      whole? 8.0 = some 8 ∧ whole? 10.0 = some 10 := by
    decide +kernel
  obtain ⟨fj, vj⟩ := value_of_whole? whole.1
  obtain ⟨fa, va⟩ := value_of_whole? whole.2.1
  obtain ⟨fr, vr⟩ := value_of_whole? whole.2.2.1
  obtain ⟨fw, vw⟩ := value_of_whole? whole.2.2.2.1
  obtain ⟨fb, vb⟩ := value_of_whole? whole.2.2.2.2
  have july : Within (2 ^ 3) 7.0 := ⟨fj, by rw [vj]; norm_num⟩
  have august : Within (2 ^ 3) 6.0 := ⟨fa, by rw [va]; norm_num⟩
  have rate : Within (2 ^ 7) 75.0 := ⟨fr, by rw [vr]; norm_num⟩
  have workday : AtLeast 0 8.0 := .inr ⟨fw, by rw [vw]; norm_num⟩
  have budget : AtLeast 0 10.0 := .inr ⟨fb, by rw [vb]; norm_num⟩
  have agreed : tenHours.budget = some 10.0 := by decide +kernel
  have moderate : Moderate 3 7 1 0 tenHours entries :=
    { hours := List.forall_mem_cons.2 ⟨july, List.forall_mem_singleton.2 august⟩
      rates := by
        intro e he r hr
        rcases List.mem_pair.1 he with rfl | rfl
        all_goals exact Option.some.inj hr ▸ rate
      count := le_rfl
      workday
      budget := fun x hx => Option.some.inj (agreed.symm.trans hx) ▸ ⟨fb, budget⟩
      digits := by decide
      amounts := by decide
      ratios := by decide }
  exact isFinite_of_moderate moderate none Plan.lateAugust

/-- Infinite hours pass validation, and a rate is made of them that is no number. -/
theorem exists_not_finite :
    let entry : Json :=
      .object [("date", .string "2024-08-31"), ("hours", .string "inf"), ("rate", .int 50)]
    ∃ entries, Entry.checkAll [entry] = .valid entries ∧
      ∃ m ∈ (ofEntries .default none Plan.lateAugust entries).months,
        m.hours.isInf = true ∧ m.utilization.isInf = true ∧ m.rate.isNaN = true := by
  intro entry
  have infinite : (match Entry.checkAll [entry] with
      | .valid entries => (ofEntries .default none Plan.lateAugust entries).months.any fun m =>
          m.hours.isInf && m.utilization.isInf && m.rate.isNaN
      | .invalid _ => false) = true := by
    decide +kernel
  split at infinite
  · rename_i entries hentries
    obtain ⟨m, hm, figures⟩ := List.any_eq_true.1 infinite
    rw [Bool.and_eq_true, Bool.and_eq_true, and_assoc] at figures
    exact ⟨entries, hentries, m, hm, figures⟩
  · cases infinite

end Examples

end Report

end Worklog
