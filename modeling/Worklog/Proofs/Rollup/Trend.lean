import Worklog.Proofs.Rollup.Months

/-!
# Trends

The months of a trend are sorted before the last of them are taken. Months that differ in their keys
can be sorted in one way only (`Month.sort_eq_of_perm`), so a trend does not depend on the order in
which its months arrive. It shows a tail of the sorted months, whose length the limit tells
(`Trend.showsLast_ofMonths`); of months that are in order already it shows a tail of these
(`Trend.showsLast_of_ascending`), which is how the trend of a report goes with its months.
-/

namespace Worklog

/-! ## The last elements of a list -/

/-- How many of `n` elements a limit keeps; a negative one says how many it does not. -/
def lastCount (limit : Option Int) (n : Nat) : Nat :=
  match limit with
  | none => n
  | some k => if k = 0 then n else if 0 < k then min k.toNat n else n - (-k).toNat

theorem lastCount_natCast {k : Nat} (hk : 1 ≤ k) (n : Nat) : lastCount (some k) n = min k n := by
  rw [lastCount, if_neg (by omega), if_pos (by omega), Int.toNat_natCast]

theorem length_lastOf {α : Type} (limit : Option Int) (as : List α) :
    (lastOf limit as).length = lastCount limit as.length := by
  cases limit with
  | none => rfl
  | some k =>
    simp only [lastOf, lastCount]
    split_ifs
    · rfl
    · rw [List.length_drop]
      omega
    · rw [List.length_drop]
      omega

theorem lastOf_suffix {α : Type} (limit : Option Int) (as : List α) : lastOf limit as <:+ as := by
  cases limit with
  | none => exact List.suffix_refl as
  | some k =>
    simp only [lastOf]
    split_ifs
    · exact List.suffix_refl as
    · exact List.drop_suffix ..
    · exact List.drop_suffix ..

/-! ## Months in order -/

namespace Month

section Entries

variable (settings : Settings) (entries : List Entry)

theorem pairwise_isBefore_ofEntries :
    (ofEntries settings entries).Pairwise fun a b => a.isBefore b = true := by
  have order := MonthKey.pairwise_sort (MonthKey.nodup_ofEntries entries)
  rw [← map_key_ofEntries settings, List.pairwise_map] at order
  exact order

end Entries

theorem orders_isBefore : Sorting.Orders isBefore fun _ => True where
  asymm := fun _ _ => MonthKey.orders_isBefore.asymm trivial trivial
  trans := fun _ _ _ => MonthKey.orders_isBefore.trans trivial trivial trivial

/-- Months that are in order stay as they are. -/
theorem sort_eq_self {months : List Month}
    (ascending : months.Pairwise fun a b => a.isBefore b = true) :
    Sorting.sort isBefore months = months :=
  Sorting.sort_eq_self (ascending.imp fun h => orders_isBefore.asymm trivial trivial h)

/-- Months with different keys are in strictly ascending order when they are sorted. -/
theorem pairwise_sort {months : List Month} (distinct : (months.map key).Nodup) :
    (Sorting.sort isBefore months).Pairwise fun a b => a.isBefore b = true := by
  have order : Sorting.InOrder isBefore (Sorting.sort isBefore months) :=
    orders_isBefore.inOrder_sort fun _ _ => trivial
  have keys : (Sorting.sort isBefore months).Pairwise fun a b => a.key ≠ b.key := by
    rw [← List.pairwise_map]
    exact ((Sorting.sort_perm isBefore months).map key).nodup_iff.2 distinct
  exact List.Pairwise.imp₂ (fun _ _ => MonthKey.isBefore_of_ne) order keys

/-- Months with different keys are sorted in one way, whatever order they are in. -/
theorem sort_eq_of_perm {months arranged : List Month} (distinct : (months.map key).Nodup)
    (h : arranged.Perm months) : Sorting.sort isBefore arranged = Sorting.sort isBefore months := by
  have perm : (Sorting.sort isBefore arranged).Perm (Sorting.sort isBefore months) :=
    (Sorting.sort_perm ..).trans (h.trans (Sorting.sort_perm ..).symm)
  refine perm.eq_of_pairwise (fun a b _ _ hab hba => ?_)
    (pairwise_sort ((h.map key).nodup_iff.2 distinct)) (pairwise_sort distinct)
  exact absurd ((orders_isBefore.asymm trivial trivial hab).symm.trans hba) nofun

end Month

/-! ## What a trend shows -/

namespace Trend

/-- The series of months, none of them left out. -/
def series (months : List Month) : Trend where
  labels := months.map Month.label
  hours := months.map Month.hours
  utilization := months.map Month.utilization
  invoiced := months.map Month.invoiced

/-- A trend whose series are those of the last of some months; the limit tells how many. -/
structure ShowsLast (t : Trend) (limit : Option Int) (months : List Month) : Prop where
  exists_kept : ∃ omitted kept, months = omitted ++ kept ∧
    kept.length = lastCount limit months.length ∧ t = series kept
  hours_length : t.hours.length = t.labels.length
  utilization_length : t.utilization.length = t.labels.length
  invoiced_length : t.invoiced.length = t.labels.length

theorem showsLast_series (limit : Option Int) (months : List Month) :
    (series (lastOf limit months)).ShowsLast limit months where
  exists_kept := by
    obtain ⟨omitted, cut⟩ := lastOf_suffix limit months
    exact ⟨omitted, _, cut.symm, length_lastOf limit months, rfl⟩
  hours_length := by simp only [series, List.length_map]
  utilization_length := by simp only [series, List.length_map]
  invoiced_length := by simp only [series, List.length_map]

theorem ofMonths_eq (limit : Option Int) (months : List Month) :
    ofMonths limit months = series (lastOf limit (Sorting.sort Month.isBefore months)) :=
  rfl

/-- A trend shows the last of its months in order of time. -/
theorem showsLast_ofMonths (limit : Option Int) (months : List Month) :
    (ofMonths limit months).ShowsLast limit (Sorting.sort Month.isBefore months) :=
  showsLast_series ..

theorem showsLast_of_ascending (limit : Option Int) {months : List Month}
    (ascending : months.Pairwise fun a b => a.isBefore b = true) :
    (ofMonths limit months).ShowsLast limit months := by
  have shows := showsLast_ofMonths limit months
  rwa [Month.sort_eq_self ascending] at shows

/-- A trend does not depend on the order in which its months arrive. -/
theorem ofMonths_eq_of_perm (limit : Option Int) {months arranged : List Month}
    (distinct : (months.map Month.key).Nodup) (h : arranged.Perm months) :
    ofMonths limit arranged = ofMonths limit months := by
  rw [ofMonths_eq, ofMonths_eq, Month.sort_eq_of_perm distinct h]

end Trend

end Worklog
