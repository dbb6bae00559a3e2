import Worklog.Proofs.Date.Basic
import Worklog.Proofs.Decimal.Positive
import Worklog.Proofs.Rollup.Buckets
import Worklog.Proofs.Rollup.Stepwise
import Worklog.Proofs.Sorting.Sorted

/-!
# Monthly figures

The months of a report are those in which there are entries, in ascending order. Each sums up its
own bucket of the entries (`Month.SumsUp`), and counts its hours on top of those of the months
before it. Every month has a working day, so the utilization of a month is a true quotient
(`MonthKey.target_pos`). All this is put together in `Month.account_ofEntries`.
-/

namespace Worklog

/-! ## Working days -/

namespace Date

theorem one_le_workingDays (year month : Nat) : 1 ≤ workingDays year month := by
  have days := le_daysInMonth year month
  -- The first or the third day of a month is none of a weekend.
  obtain ⟨i, hi, hw⟩ : ∃ i < 3, weekday year month (i + 1) < 5 := by
    simp only [weekday, Nat.add_sub_cancel]
    by_cases h : (daysBeforeYear year + daysBeforeMonth year month + 0) % 7 < 5
    · exact ⟨0, by omega, h⟩
    · exact ⟨2, by omega, by omega⟩
  exact List.countP_pos_iff.2 ⟨i, List.mem_range.2 (by omega), decide_eq_true hw⟩

theorem workingDays_le (year month : Nat) : workingDays year month ≤ 31 := by
  have count : workingDays year month ≤ daysInMonth year month :=
    List.countP_le_length.trans_eq List.length_range
  exact count.trans (daysInMonth_le year month)

end Date

namespace MonthKey

theorem target_pos (k : MonthKey) {hoursPerWorkday : Float} (h : 0.0 < hoursPerWorkday) :
    0.0 < k.target hoursPerWorkday :=
  Decimal.mul_pos
    (Decimal.isAtLeastOne_ofInt (Date.one_le_workingDays ..) (Date.workingDays_le ..)) h

/-! ## The order of months -/

theorem isBefore_iff {a b : MonthKey} :
    a.isBefore b = true ↔ a.year < b.year ∨ a.year = b.year ∧ a.month < b.month := by
  simp [isBefore]

theorem orders_isBefore : Sorting.Orders isBefore fun _ => True where
  asymm := by
    intro a b _ _ h
    rw [isBefore_iff] at h
    rw [Bool.eq_false_iff, ne_eq, isBefore_iff]
    omega
  trans := by
    intro a b c _ _ _ hab hbc
    rw [Bool.eq_false_iff, ne_eq, isBefore_iff] at hab hbc ⊢
    omega

theorem isBefore_of_ne {a b : MonthKey} (h : b.isBefore a = false) (ne : a ≠ b) :
    a.isBefore b = true := by
  rw [Bool.eq_false_iff, ne_eq, isBefore_iff] at h
  rw [isBefore_iff]
  by_contra hab
  refine ne ?_
  cases a
  cases b
  simp only [mk.injEq]
  simp only at h hab
  omega

/-- Different months are in strictly ascending order when they are sorted. -/
theorem pairwise_sort {keys : List MonthKey} (nodup : keys.Nodup) :
    (Sorting.sort isBefore keys).Pairwise fun a b => a.isBefore b = true := by
  have order : Sorting.InOrder isBefore (Sorting.sort isBefore keys) :=
    orders_isBefore.inOrder_sort fun _ _ => trivial
  have distinct : (Sorting.sort isBefore keys).Nodup := (Sorting.sort_perm ..).nodup_iff.2 nodup
  exact List.Pairwise.imp₂ (fun _ _ => isBefore_of_ne) order distinct

end MonthKey

/-! ## Sums over months -/

/-- The months of entries share out whatever is summed up over the entries. -/
theorem sum_map_inMonth {α : Type} [AddCommMonoid α] (f : Entry → α) {keys : List MonthKey}
    {entries : List Entry} (h : keys.Perm (MonthKey.ofEntries entries)) :
    (keys.map fun k => ((inMonth k entries).map f).sum).sum = (entries.map f).sum := by
  have flat (buckets : Buckets) : ((buckets.flatMap Prod.snd).map f).sum =
      (buckets.map fun b => (b.2.map f).sum).sum := by
    induction buckets with
    | nil => rfl
    | cons b buckets ih =>
      rw [List.flatMap_cons, List.map_append, List.sum_append, ih, List.map_cons, List.sum_cons]
  rw [(h.map _).sum_eq, ← ((Buckets.flatMap_ofEntries entries).map f).sum_eq, flat,
    Buckets.ofEntries_eq, Buckets.ofKeys, List.map_map]
  rfl

/-! ## The figures of months -/

namespace Month

/-- The figures of a month are those of the entries in its bucket. -/
structure SumsUp (settings : Settings) (b : MonthKey × List Entry) (m : Month) : Prop where
  key_eq : m.key = b.1
  hours_eq : m.hours = total (b.2.map Entry.hours)
  invoiced_eq : m.invoiced = total (b.2.map fun e => e.hours * rateOrZero e.rate)
  rate_eq : m.rate = if m.hours > 0.0 then m.invoiced / m.hours else 0.0
  utilization_eq : m.utilization =
    m.hours / (Decimal.ofInt (Date.workingDays m.year m.month) * settings.hoursPerWorkday)

theorem sumsUp_ofBucket (settings : Settings) (before : Float) (k : MonthKey)
    (bucket : List Entry) : SumsUp settings (k, bucket) (ofBucket settings before k bucket) where
  key_eq := rfl
  hours_eq := rfl
  invoiced_eq := rfl
  rate_eq := rfl
  utilization_eq := if_pos (k.target_pos settings.hoursPerWorkday_pos)

section Accumulate

variable (settings : Settings) (entries : List Entry)

theorem sumsUp_accumulate (before : Float) (keys : List MonthKey) :
    List.Forall₂ (SumsUp settings) (Buckets.ofKeys keys entries)
      (accumulate settings entries before keys) := by
  induction keys generalizing before with
  | nil => exact .nil
  | cons k keys ih => exact .cons (sumsUp_ofBucket ..) (ih _)

theorem map_key_accumulate (before : Float) (keys : List MonthKey) :
    (accumulate settings entries before keys).map key = keys := by
  induction keys generalizing before with
  | nil => rfl
  | cons k keys ih => exact congrArg (k :: ·) (ih _)

/-- The hours before a month and its own make up those before the next. -/
theorem cumulativeHours_accumulate (before : Float) (keys : List MonthKey) :
    before :: (accumulate settings entries before keys).map cumulativeHours =
      ((accumulate settings entries before keys).map hours).inits.map
        fun hs => hs.foldl (· + ·) before := by
  induction keys generalizing before with
  | nil => rfl
  | cons k keys ih =>
    simp only [accumulate, List.map_cons, List.inits_cons, List.map_map]
    rw [ih]
    rfl

/-- The months of entries are sorted. -/
theorem map_key_ofEntries : (ofEntries settings entries).map key =
    Sorting.sort MonthKey.isBefore (MonthKey.ofEntries entries) :=
  map_key_accumulate ..

end Accumulate

/-- Months that account for entries: each once, by its sums, and all in order. -/
structure Account (settings : Settings) (entries : List Entry) (months : List Month) : Prop where
  ascending : (months.map key).Pairwise fun a b => a.isBefore b = true
  mem_map_key : ∀ k, k ∈ months.map key ↔ ∃ e ∈ entries, MonthKey.ofDate e.date = k
  sumsUp : ∃ buckets, List.Perm buckets (Buckets.ofEntries entries) ∧
    List.Forall₂ (SumsUp settings) buckets months
  cumulativeHours_eq : months.map cumulativeHours = (months.map hours).inits.tail.map total

/--
The buckets of entries partition them, whatever their order is, and the months of the entries
account for all of them.
-/
theorem account_ofEntries (settings : Settings) (entries : List Entry) :
    (Buckets.ofEntries entries).Partitions entries ∧
      Account settings entries (ofEntries settings entries) := by
  have keys := map_key_ofEntries settings entries
  have perm := Sorting.sort_perm MonthKey.isBefore (MonthKey.ofEntries entries)
  refine ⟨Buckets.partitions_ofEntries entries, ?_, ?_, ?_, ?_⟩
  · rw [keys]
    exact MonthKey.pairwise_sort (MonthKey.nodup_ofEntries entries)
  · intro k
    rw [keys, perm.mem_iff, MonthKey.mem_ofEntries]
  · refine ⟨_, ?_, sumsUp_accumulate settings entries 0.0 _⟩
    rw [Buckets.ofEntries_eq]
    exact perm.map _
  · have running := congrArg List.tail (cumulativeHours_accumulate settings entries 0.0
      (Sorting.sort MonthKey.isBefore (MonthKey.ofEntries entries)))
    rwa [List.tail_cons, ← List.map_tail] at running

end Month

end Worklog
