import Worklog.Proofs.Rollup.Months

/-!
# Summaries month by month

A summary adds up its entries at once, and measures their hours against those of all working days of
the months in which they are. These are the months of the monthly figures, each counted once, though
the targets are added up in the order of a hashed set (`Summary.Measures`). So the summary of the
entries of a single month has the figures of that month (`Month.SharedBy`): both sum up the same
entries in the same order, and the sum of one target is that target.
-/

namespace Worklog

/-! ## The months of the entries of a month -/

theorem MonthKey.mem_ofEntries_inMonth {j k : MonthKey} {entries : List Entry} :
    j ∈ ofEntries (inMonth k entries) ↔ j = k ∧ k ∈ ofEntries entries := by
  rw [mem_ofEntries, mem_ofEntries]
  constructor
  · rintro ⟨e, he, rfl⟩
    obtain ⟨he, same⟩ := List.mem_filter.1 he
    have same := of_decide_eq_true same
    exact ⟨same, e, he, same⟩
  · rintro ⟨rfl, e, he, same⟩
    exact ⟨e, List.mem_filter.2 ⟨he, decide_eq_true same⟩, same⟩

/-- However many entries a month has, it is their only month. -/
theorem MonthKey.ofEntries_inMonth {k : MonthKey} {entries : List Entry}
    (hk : k ∈ ofEntries entries) : ofEntries (inMonth k entries) = [k] := by
  refine List.perm_singleton.1 ?_
  rw [List.perm_ext_iff_of_nodup (nodup_ofEntries _) (List.nodup_singleton k)]
  intro j
  rw [mem_ofEntries_inMonth, List.mem_singleton, and_iff_left hk]

theorem MonthKey.setOfEntries_inMonth {k : MonthKey} {entries : List Entry}
    (hk : k ∈ ofEntries entries) : setOfEntries (inMonth k entries) = [k] := by
  rw [setOfEntries, ofEntries_inMonth hk]
  exact List.perm_singleton.1 (HashOrder.arrange_perm hash [k])

/-! ## Targets -/

theorem targetOfMonths_singleton (settings : Settings) (k : MonthKey) :
    targetOfMonths [k] settings.hoursPerWorkday = k.target settings.hoursPerWorkday :=
  total_singleton (k.target_pos settings.hoursPerWorkday_pos)

theorem targetOfMonths_pos (settings : Settings) {keys : List MonthKey} (ne : keys ≠ []) :
    0.0 < targetOfMonths keys settings.hoursPerWorkday := by
  refine total_pos (mt List.map_eq_nil_iff.1 ne) fun x hx => ?_
  obtain ⟨k, -, rfl⟩ := List.mem_map.1 hx
  exact k.target_pos settings.hoursPerWorkday_pos

/-! ## Agreement -/

/-- The figures of a month, found in a summary. -/
structure Month.SharedBy (m : Month) (s : Summary) : Prop where
  totalHours_eq : s.totalHours = m.hours
  totalInvoiced_eq : s.totalInvoiced = m.invoiced
  utilization_eq : s.utilization = m.utilization

theorem Month.sharedBy_ofBucket (settings : Settings) (before : Float) {k : MonthKey}
    {entries : List Entry} (hk : k ∈ MonthKey.ofEntries entries) :
    (ofBucket settings before k (inMonth k entries)).SharedBy
      (Summary.ofEntries settings (inMonth k entries)) where
  totalHours_eq := rfl
  totalInvoiced_eq := rfl
  utilization_eq := by
    simp only [Summary.ofEntries, ofBucket, MonthKey.setOfEntries_inMonth hk,
      targetOfMonths_singleton]

theorem Month.sharedBy_of_mem_accumulate {settings : Settings} {before : Float}
    {entries : List Entry} {keys : List MonthKey} (hkeys : keys ⊆ MonthKey.ofEntries entries)
    {m : Month} (hm : m ∈ accumulate settings entries before keys) :
    m.SharedBy (Summary.ofEntries settings (inMonth m.key entries)) := by
  induction keys generalizing before with
  | nil => cases hm
  | cons k keys ih =>
    obtain ⟨hk, hkeys⟩ := List.cons_subset.1 hkeys
    rcases List.mem_cons.1 hm with rfl | hm
    · exact sharedBy_ofBucket settings before hk
    · exact ih hkeys hm

/--
The months against whose working days the hours of a summary are measured, in the order in which
their targets are added up.
-/
structure Summary.Measures (settings : Settings) (s : Summary) (keys : List MonthKey) : Prop where
  once : keys.Nodup
  utilization_nil : keys = [] → s.utilization = 0.0
  utilization_eq : keys ≠ [] → s.utilization =
    s.totalHours / total (keys.map (·.target settings.hoursPerWorkday))

theorem Summary.measures_ofEntries (settings : Settings) (entries : List Entry) :
    (ofEntries settings entries).Measures settings (MonthKey.setOfEntries entries) where
  once := (MonthKey.setOfEntries_perm entries).nodup_iff.2 (MonthKey.nodup_ofEntries entries)
  utilization_nil := fun none => by
    have idle : ¬ (0.0 : Float) < 0.0 := by decide +kernel
    simp only [ofEntries, none]
    exact if_neg idle
  utilization_eq := fun ne => if_pos (targetOfMonths_pos settings ne)

/--
The summary of the entries of a month has the figures of that month, and the summary of all entries
counts the working days of the same months as the monthly figures do.
-/
theorem summaries_agree_with_months (settings : Settings) (entries : List Entry) :
    (∀ m ∈ Month.ofEntries settings entries,
      m.SharedBy (Summary.ofEntries settings (inMonth m.key entries))) ∧
    (Summary.ofEntries settings entries).Measures settings (MonthKey.setOfEntries entries) ∧
    (MonthKey.setOfEntries entries).Perm ((Month.ofEntries settings entries).map Month.key) := by
  have perm := Sorting.sort_perm MonthKey.isBefore (MonthKey.ofEntries entries)
  refine ⟨fun m hm => Month.sharedBy_of_mem_accumulate perm.subset hm,
    Summary.measures_ofEntries settings entries, ?_⟩
  rw [Month.map_key_ofEntries]
  exact (MonthKey.setOfEntries_perm entries).trans perm.symm

end Worklog
