import Worklog.Proofs.Decimal.Sums
import Worklog.Proofs.Plan.Overruled
import Worklog.Proofs.Rollup.Months
import Worklog.Report

/-!
# The running total and the summary

The hours of a report are added up twice: the summary adds those of all entries, and the months add
theirs and then the sums of the months before. Both are near to the exact sum of the hours
(`near_totalHours`, `near_cumulativeHours`), and they are the same if all hours are multiples of one
unit, such as a quarter of an hour, and not too many of them (`Report.running_total`). Otherwise the
two ways of adding may differ in the last digit (`Report.exists_apart`).
-/

namespace Worklog

open Decimal

/-- The exact sum of the hours of entries. -/
def exactHours (entries : List Entry) : ℚ :=
  (entries.map fun e => value e.hours).sum

/-! ## Months -/

theorem exactHours_nonneg (entries : List Entry) : 0 ≤ exactHours entries := by
  refine List.sum_nonneg fun q hq => ?_
  obtain ⟨e, -, rfl⟩ := List.mem_map.1 hq
  exact value_nonneg e.hours_nonneg

theorem sum_map_value (entries : List Entry) :
    ((entries.map Entry.hours).map value).sum = exactHours entries := by
  rw [List.map_map]
  rfl

theorem exactHours_perm {as bs : List Entry} (h : as.Perm bs) : exactHours as = exactHours bs :=
  (h.map _).sum_eq

theorem mem_of_mem_inMonth {k : MonthKey} {entries : List Entry} {e : Entry}
    (h : e ∈ inMonth k entries) : e ∈ entries :=
  List.mem_of_mem_filter h

theorem exactHours_inMonth_le (k : MonthKey) (entries : List Entry) :
    exactHours (inMonth k entries) ≤ exactHours entries := by
  refine (List.filter_sublist.map _).sum_le_sum fun q hq => ?_
  obtain ⟨e, -, rfl⟩ := List.mem_map.1 hq
  exact value_nonneg e.hours_nonneg

theorem sum_exactHours_inMonth {keys : List MonthKey} {entries : List Entry}
    (h : keys.Perm (MonthKey.ofEntries entries)) :
    (keys.map fun k => exactHours (inMonth k entries)).sum = exactHours entries :=
  sum_map_inMonth _ h

namespace Month

section Accumulate

variable {settings : Settings} {entries : List Entry}

theorem tracked_eq_of_mem_accumulate {before : Float} {keys : List MonthKey} {m : Month}
    (hm : m ∈ accumulate settings entries before keys) :
    m.tracked = budgetFigures m.cumulativeHours settings.budget := by
  induction keys generalizing before with
  | nil => cases hm
  | cons k keys ih =>
    rcases List.mem_cons.1 hm with rfl | hm
    · rfl
    · exact ih hm

/-- The cumulative hours of the last month are the sums of the months, added up. -/
theorem cumulativeHours_getLast? {before : Float} {keys : List MonthKey} {m : Month}
    (hm : (accumulate settings entries before keys).getLast? = some m) :
    m.cumulativeHours =
      (keys.map fun k => Worklog.totalHours (inMonth k entries)).foldl (· + ·) before := by
  induction keys generalizing before with
  | nil => cases hm
  | cons k keys ih =>
    cases keys with
    | nil =>
      cases hm
      rfl
    | cons k' keys => exact ih hm

end Accumulate

end Month

theorem MonthKey.length_ofEntries_le (entries : List Entry) :
    (ofEntries entries).length ≤ entries.length := by
  have within : ofEntries entries ⊆ entries.map fun e => ofDate e.date :=
    fun k hk => List.mem_map.2 (mem_ofEntries.1 hk)
  simpa using (List.subperm_of_subset (nodup_ofEntries entries) within).length_le

/-! ## Sums that are near -/

section Near

variable {entries : List Entry} (finite : ∀ e ∈ entries, e.hours.isFinite = true)
include finite

theorem near_totalHours
    (small : exactHours entries * (1 + 1 / 2 ^ 53) ^ entries.length < 2 ^ 1024) :
    Near entries.length (exactHours entries) (totalHours entries) := by
  have hours : List.Forall₂ (Near 0) (entries.map fun e => value e.hours)
      (entries.map Entry.hours) := by
    rw [List.forall₂_map_left_iff, List.forall₂_map_right_iff, List.forall₂_same]
    exact fun e he => near_self (finite e he)
  have nonneg : ∀ q ∈ entries.map fun e => value e.hours, 0 ≤ q := by
    intro q hq
    obtain ⟨e, -, rfl⟩ := List.mem_map.1 hq
    exact value_nonneg e.hours_nonneg
  have near := near_total hours nonneg (by rwa [zero_add, List.length_map])
  rwa [zero_add, List.length_map] at near

theorem near_total_inMonth {keys : List MonthKey} (perm : keys.Perm (MonthKey.ofEntries entries))
    (small : exactHours entries * (1 + 1 / 2 ^ 53) ^ (2 * entries.length) < 2 ^ 1024) :
    Near (2 * entries.length) (exactHours entries)
      (total (keys.map fun k => totalHours (inMonth k entries))) := by
  have nonneg := exactHours_nonneg entries
  have count : keys.length ≤ entries.length :=
    perm.length_eq.trans_le (MonthKey.length_ofEntries_le entries)
  have power {n n' : ℕ} (h : n ≤ n') : (1 + 1 / 2 ^ 53 : ℚ) ^ n ≤ (1 + 1 / 2 ^ 53) ^ n' :=
    pow_le_pow_right₀ (by norm_num) h
  have months : List.Forall₂ (Near entries.length)
      (keys.map fun k => exactHours (inMonth k entries))
      (keys.map fun k => totalHours (inMonth k entries)) := by
    rw [List.forall₂_map_left_iff, List.forall₂_map_right_iff, List.forall₂_same]
    intro k _
    have length : (inMonth k entries).length ≤ entries.length := List.length_filter_le ..
    refine (near_totalHours (fun e he => finite e (mem_of_mem_inMonth he)) ?_).mono length
      (exactHours_nonneg _)
    exact (mul_le_mul (exactHours_inMonth_le k entries) (power (by omega)) (by positivity)
      nonneg).trans_lt small
  have near := near_total months (by
    intro q hq
    obtain ⟨k, -, rfl⟩ := List.mem_map.1 hq
    exact exactHours_nonneg _) (by
    rw [sum_exactHours_inMonth perm, List.length_map]
    exact (mul_le_mul_of_nonneg_left (power (by omega)) nonneg).trans_lt small)
  rw [sum_exactHours_inMonth perm, List.length_map] at near
  exact near.mono (by omega) nonneg

end Near

/-! ## Sums that are exact -/

section Exact

variable {k : ℕ} (hk : k ≤ 1074) {entries : List Entry}
  (multiple : ∀ e ∈ entries, IsMultiple k e.hours)
  (small : exactHours entries ≤ 2 ^ 53 / 2 ^ k)
include hk multiple small

theorem totalHours_exact :
    IsMultiple k (totalHours entries) ∧ value (totalHours entries) = exactHours entries := by
  have sum := total_exact hk (List.forall_mem_map.2 multiple)
    ((sum_map_value entries).trans_le small)
  rwa [sum_map_value] at sum

theorem total_inMonth_eq_totalHours {keys : List MonthKey}
    (perm : keys.Perm (MonthKey.ofEntries entries)) :
    total (keys.map fun k => totalHours (inMonth k entries)) = totalHours entries := by
  have month (k' : MonthKey) : IsMultiple k (totalHours (inMonth k' entries)) ∧
      value (totalHours (inMonth k' entries)) = exactHours (inMonth k' entries) :=
    totalHours_exact hk (fun e he => multiple e (mem_of_mem_inMonth he))
      ((exactHours_inMonth_le k' entries).trans small)
  have months : ((keys.map fun k => totalHours (inMonth k entries)).map value).sum =
      exactHours entries := by
    rw [List.map_map, ← sum_exactHours_inMonth perm]
    exact congrArg List.sum (List.map_congr_left fun k' _ => (month k').2)
  exact total_eq_total hk (List.forall_mem_map.2 fun k' _ => (month k').1)
    (List.forall_mem_map.2 multiple) (months.trans_le small)
    (months.trans (sum_map_value entries).symm)

end Exact

/-! ## Reports -/

namespace Report

/-- A report on entries has a last month, which has counted the hours of all months. -/
theorem exists_last (settings : Settings) (trendLength : Option Nat) (today : Date)
    {entries : List Entry} (nonempty : entries ≠ []) :
    let report := ofEntries settings trendLength today entries
    ∃ (keys : List MonthKey) (last : Month), keys.Perm (MonthKey.ofEntries report.entries) ∧
      report.months.getLast? = some last ∧
      last.cumulativeHours = total (keys.map fun k => totalHours (inMonth k report.entries)) ∧
      last.tracked = budgetFigures last.cumulativeHours settings.budget := by
  intro report
  have perm := Sorting.sort_perm MonthKey.isBefore (MonthKey.ofEntries report.entries)
  have months : report.months ≠ [] := by
    intro empty
    obtain ⟨e, he⟩ := List.exists_mem_of_ne_nil entries nonempty
    have mem : MonthKey.ofDate e.date ∈ MonthKey.ofEntries report.entries :=
      MonthKey.mem_ofEntries.2 ⟨e, (Sorting.sort_perm Entry.isBefore entries).mem_iff.2 he, rfl⟩
    have keys := Month.map_key_ofEntries settings report.entries
    rw [show Month.ofEntries settings report.entries = [] from empty] at keys
    rw [← perm.mem_iff, ← keys] at mem
    cases mem
  obtain ⟨last, hlast⟩ := Option.isSome_iff_exists.1 (List.getLast?_isSome.2 months)
  exact ⟨_, last, perm, hlast, Month.cumulativeHours_getLast? hlast,
    Month.tracked_eq_of_mem_accumulate (List.mem_of_getLast? hlast)⟩

/--
The cumulative hours of the last month and those of the summary are both near to the sum of all
hours, and they are the same if there is room for that sum in whole units.
-/
theorem running_total (settings : Settings) (trendLength : Option Nat) (today : Date)
    {entries : List Entry} (nonempty : entries ≠ [])
    (finite : ∀ e ∈ entries, e.hours.isFinite = true) :
    let report := ofEntries settings trendLength today entries
    let n := entries.length
    let sum := exactHours entries
    ∃ last, report.months.getLast? = some last ∧
      (sum * (1 + 1 / 2 ^ 53) ^ (2 * n) < 2 ^ 1024 →
        Near (2 * n) sum last.cumulativeHours ∧ Near n sum report.summary.totalHours) ∧
      ∀ k ≤ 1074, (∀ e ∈ entries, ∃ i : ℕ, value e.hours = i / 2 ^ k) → sum ≤ 2 ^ 53 / 2 ^ k →
        last.cumulativeHours = report.summary.totalHours ∧
          last.tracked = report.summary.tracked := by
  intro report n sum
  obtain ⟨keys, last, perm, hlast, cumulative, tracked⟩ :=
    exists_last settings trendLength today nonempty
  have ordered : report.entries.Perm entries := Sorting.sort_perm Entry.isBefore entries
  have same : exactHours report.entries = sum := exactHours_perm ordered
  have length : report.entries.length = n := ordered.length_eq
  refine ⟨last, hlast, fun small => ?_, fun k hk multiple small => ?_⟩
  · have finite : ∀ e ∈ report.entries, e.hours.isFinite = true :=
      fun e he => finite e (ordered.mem_iff.1 he)
    rw [← same, ← length] at small ⊢
    rw [cumulative]
    refine ⟨near_total_inMonth finite perm small, near_totalHours finite ?_⟩
    refine (mul_le_mul_of_nonneg_left ?_ (exactHours_nonneg _)).trans_lt small
    exact pow_le_pow_right₀ (by norm_num) (by omega)
  · have multiple : ∀ e ∈ report.entries, IsMultiple k e.hours := fun e he =>
      ⟨finite e (ordered.mem_iff.1 he), multiple e (ordered.mem_iff.1 he)⟩
    have agree : last.cumulativeHours = report.summary.totalHours :=
      cumulative.trans (total_inMonth_eq_totalHours hk multiple (same.trans_le small) perm)
    refine ⟨agree, ?_⟩
    rw [tracked, agree]
    rfl

section Examples

/-- Hours on a day. -/
def spent (d : Date) (hours : Float) (h : 0.0 ≤ hours) : Entry :=
  { Entry.blank d none with
    hours
    hours_nonneg := h }

/-- The last day of July 2024. -/
def lateJuly : Date :=
  ⟨2024, 7, 31, Plan.lateAugust.year_pos, Plan.lateAugust.year_le, by decide, by decide,
    Plan.lateAugust.day_pos, by decide⟩

/-- Ten hours agreed upon in advance. -/
def tenHours : Settings :=
  { Settings.default with
    billing := .retainer
    agreedHours := some 10.0
    agreedHours_nonneg := by decide +kernel }

theorem running_total_quarters :
    let entries : List Entry :=
      [spent lateJuly 7.25 (by decide +kernel), spent Plan.lateAugust 0.25 (by decide +kernel)]
    let report := ofEntries tenHours none Plan.lateAugust entries
    ∃ last, report.months.getLast? = some last ∧
      last.cumulativeHours = report.summary.totalHours ∧
        last.tracked = report.summary.tracked := by
  intro entries report
  have bits : exact 7.25 = .finite false 8162774324609024 (-50) := by decide +kernel
  have bits' : exact 0.25 = .finite false 4503599627370496 (-54) := by decide +kernel
  have first : value 7.25 = 29 / 4 := by
    rw [(value_of_exact bits).2, signed]
    norm_num
  have second : value 0.25 = 1 / 4 := by
    rw [(value_of_exact bits').2, signed]
    norm_num
  have sum : exactHours entries = 30 / 4 := by
    change value 7.25 + (value 0.25 + 0) = _
    rw [first, second]
    norm_num
  have quarters : ∀ e ∈ entries, ∃ i : ℕ, value e.hours = i / 2 ^ 2 := by
    intro e he
    rcases List.mem_pair.1 he with rfl | rfl
    · exact ⟨29, first.trans (by norm_num)⟩
    · exact ⟨1, second.trans (by norm_num)⟩
  have nonempty : entries ≠ [] := by decide
  obtain ⟨last, hlast, -, same⟩ := running_total tenHours none Plan.lateAugust nonempty
    (by decide +kernel)
  exact ⟨last, hlast, same 2 (by decide) quarters (by rw [sum]; norm_num)⟩

/-- The months and the summary may add up the same hours to different totals. -/
theorem exists_apart :
    let entries : List Entry :=
      [spent lateJuly 0.1 (by decide +kernel), spent Plan.lateAugust 0.2 (by decide +kernel),
        spent Plan.lateAugust 0.3 (by decide +kernel)]
    let report := ofEntries tenHours none Plan.lateAugust entries
    ∃ last, report.months.getLast? = some last ∧
      last.cumulativeHours ≠ report.summary.totalHours ∧
        last.tracked ≠ report.summary.tracked := by
  intro entries report
  have apart : (report.months.getLast?.map fun m =>
      (decide (m.cumulativeHours = report.summary.totalHours),
        decide (m.tracked = report.summary.tracked))) = some (false, false) := by
    decide +kernel
  obtain ⟨last, hlast, differ⟩ := Option.map_eq_some_iff.1 apart
  rw [Prod.mk.injEq, decide_eq_false_iff_not, decide_eq_false_iff_not] at differ
  exact ⟨last, hlast, differ⟩

end Examples

end Report

end Worklog
