import Worklog.Proofs.Decimal.Nonnegative
import Worklog.Proofs.Rollup.Months

/-!
# Hours only grow

Hours are not negative, and neither is what is made of them: a month counts its hours on top of
those before it, and never ends up with less than either (`Month.growsFrom_ofBucket`). So the
cumulative hours of months do not decrease (`Month.growsFrom_accumulate`). For a whole report this
is `hours_only_grow`. It holds of all hours that entries may have, so also of infinite ones; a
utilization is no number at all if it divides infinite hours by an infinite target.
-/

namespace Worklog

open Decimal

theorem totalHours_nonneg (entries : List Entry) : 0.0 ≤ totalHours entries := by
  refine total_nonneg fun x hx => ?_
  obtain ⟨e, -, rfl⟩ := List.mem_map.1 hx
  exact e.hours_nonneg

namespace Month

/-- A month that counts its hours on top of those before it, with no figure that is negative. -/
structure GrowsFrom (before : Float) (m : Month) : Prop where
  before_le : before ≤ m.cumulativeHours
  hours_le : m.hours ≤ m.cumulativeHours
  hours_nonneg : 0.0 ≤ m.hours
  utilization_nonneg : ¬ m.utilization < 0.0

theorem growsFrom_ofBucket (settings : Settings) {before : Float} (h : 0.0 ≤ before)
    (k : MonthKey) (bucket : List Entry) :
    GrowsFrom before (ofBucket settings before k bucket) where
  before_le := (le_add h (totalHours_nonneg bucket)).1
  hours_le := (le_add h (totalHours_nonneg bucket)).2
  hours_nonneg := totalHours_nonneg bucket
  utilization_nonneg := not_ratio_neg (totalHours_nonneg bucket) _

theorem GrowsFrom.cumulativeHours_nonneg {before : Float} {m : Month} (h : 0.0 ≤ before)
    (hm : GrowsFrom before m) : 0.0 ≤ m.cumulativeHours :=
  le_of_le_of_le (isNaN_of_isFinite isFinite_zero) h hm.before_le

/-- What grows from more hours grows from less. -/
theorem GrowsFrom.of_le {before before' : Float} {m : Month} (h : 0.0 ≤ before)
    (le : before ≤ before') (hm : GrowsFrom before' m) : GrowsFrom before m :=
  { hm with before_le := le_of_le_of_le (isNaN_of_le h) le hm.before_le }

theorem growsFrom_accumulate (settings : Settings) (entries : List Entry) {before : Float}
    (h : 0.0 ≤ before) (keys : List MonthKey) :
    (∀ m ∈ accumulate settings entries before keys, GrowsFrom before m) ∧
      ((accumulate settings entries before keys).map cumulativeHours).Pairwise (· ≤ ·) := by
  induction keys generalizing before with
  | nil => exact ⟨nofun, .nil⟩
  | cons k keys ih =>
    have first := growsFrom_ofBucket settings h k (inMonth k entries)
    obtain ⟨rest, ascending⟩ := ih (first.cumulativeHours_nonneg h)
    refine ⟨List.forall_mem_cons.2 ⟨first, fun m hm => ?_⟩, .cons (fun c hc => ?_) ascending⟩
    · exact (rest m hm).of_le h first.before_le
    · obtain ⟨m, hm, rfl⟩ := List.mem_map.1 hc
      exact (rest m hm).before_le

end Month

/-- Cumulative hours never decrease, and neither hours nor utilizations are negative. -/
theorem hours_only_grow (settings : Settings) (entries : List Entry) :
    let months := Month.ofEntries settings entries
    let summary := Summary.ofEntries settings entries
    (months.map Month.key).Pairwise (fun a b => a.isBefore b = true) ∧
      (months.map Month.cumulativeHours).Pairwise (· ≤ ·) ∧
      (∀ m ∈ months, m.hours ≤ m.cumulativeHours ∧ 0.0 ≤ m.hours ∧ ¬ m.utilization < 0.0) ∧
      (0.0 ≤ summary.totalHours ∧ ¬ summary.utilization < 0.0) ∧
      ∀ e ∈ entries, ¬ dailyUtilization e.hours settings.hoursPerWorkday < 0.0 := by
  have zero : (0.0 : Float) ≤ 0.0 := by decide +kernel
  obtain ⟨grows, ascending⟩ := Month.growsFrom_accumulate settings entries zero
    (Sorting.sort MonthKey.isBefore (MonthKey.ofEntries entries))
  have total := totalHours_nonneg entries
  refine ⟨(Month.account_ofEntries settings entries).2.ascending, ascending, fun m hm => ?_,
    ⟨total, not_ratio_neg total _⟩, fun e _ => not_ratio_neg e.hours_nonneg _⟩
  have month := grows m hm
  exact ⟨month.hours_le, month.hours_nonneg, month.utilization_nonneg⟩

end Worklog
