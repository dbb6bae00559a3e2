import Mathlib.Data.List.Induction
import Worklog.Rollup

/-!
# The entries of each month

The months of entries and the entries of a month are defined one by one. A single pass over the
entries that puts each into the bucket of its month (`Buckets.ofEntries`) finds the same months and
the same entries (`Buckets.ofEntries_eq`), and the buckets partition the entries: none is lost,
none is in two buckets, and their order is kept (`Buckets.partitions_ofEntries`).
-/

namespace Worklog

/-! ## The months of entries -/

namespace MonthKey

theorem mem_ofEntries {k : MonthKey} {entries : List Entry} :
    k ∈ ofEntries entries ↔ ∃ e ∈ entries, ofDate e.date = k := by
  rw [ofEntries, List.mem_eraseDups, List.mem_map]

theorem ofEntries_concat_of_mem {entries : List Entry} {e : Entry}
    (h : ofDate e.date ∈ ofEntries entries) : ofEntries (entries ++ [e]) = ofEntries entries := by
  rw [mem_ofEntries] at h
  simp [ofEntries, List.eraseDups_append, List.removeAll, h]

theorem ofEntries_concat_of_notMem {entries : List Entry} {e : Entry}
    (h : ofDate e.date ∉ ofEntries entries) :
    ofEntries (entries ++ [e]) = ofEntries entries ++ [ofDate e.date] := by
  rw [mem_ofEntries] at h
  simp [ofEntries, List.eraseDups_append, List.eraseDups_cons, List.removeAll, h]

theorem nodup_ofEntries (entries : List Entry) : (ofEntries entries).Nodup := by
  induction entries using List.reverseRecOn with
  | nil => exact List.nodup_nil
  | append_singleton entries e ih =>
    by_cases h : ofDate e.date ∈ ofEntries entries
    · rwa [ofEntries_concat_of_mem h]
    · rw [ofEntries_concat_of_notMem h]
      exact List.perm_append_comm.nodup (List.nodup_cons.2 ⟨h, ih⟩)

end MonthKey

theorem inMonth_concat (k : MonthKey) (entries : List Entry) (e : Entry) :
    inMonth k (entries ++ [e]) =
      if MonthKey.ofDate e.date = k then inMonth k entries ++ [e] else inMonth k entries := by
  rw [inMonth, List.filter_append]
  split
  · rename_i h
    simp [inMonth, h]
  · rename_i h
    simp [inMonth, h]

theorem inMonth_eq_nil {k : MonthKey} {entries : List Entry} (h : k ∉ MonthKey.ofEntries entries) :
    inMonth k entries = [] := by
  refine List.filter_eq_nil_iff.2 fun e he same => h ?_
  exact MonthKey.mem_ofEntries.2 ⟨e, he, of_decide_eq_true same⟩

/-! ## One pass over the entries -/

/-- The entries of each month, the months in the order in which they first occur. -/
abbrev Buckets :=
  List (MonthKey × List Entry)

namespace Buckets

/-- Puts an entry last into the bucket of its month, which is a new one if there is none yet. -/
def put (e : Entry) : Buckets → Buckets
  | [] => [(MonthKey.ofDate e.date, [e])]
  | (k, bucket) :: rest =>
    if MonthKey.ofDate e.date = k then (k, bucket ++ [e]) :: rest else (k, bucket) :: put e rest

/-- The buckets that entries fill one after the other. -/
def ofEntries (entries : List Entry) : Buckets :=
  entries.foldl (fun buckets e => put e buckets) []

/-- The buckets of the given months. -/
def ofKeys (keys : List MonthKey) (entries : List Entry) : Buckets :=
  keys.map fun k => (k, inMonth k entries)

theorem ofEntries_concat (entries : List Entry) (e : Entry) :
    ofEntries (entries ++ [e]) = put e (ofEntries entries) := by
  rw [ofEntries, List.foldl_append]
  rfl

section Put

variable {keys : List MonthKey} {entries : List Entry} {e : Entry}

theorem ofKeys_concat_of_notMem (h : MonthKey.ofDate e.date ∉ keys) :
    ofKeys keys (entries ++ [e]) = ofKeys keys entries := by
  refine List.map_congr_left fun k hk => ?_
  have other : MonthKey.ofDate e.date ≠ k := fun same => h (same ▸ hk)
  rw [inMonth_concat, if_neg other]

/-- An entry of one of the months is put where it belongs. -/
theorem put_ofKeys_of_mem (nodup : keys.Nodup) (h : MonthKey.ofDate e.date ∈ keys) :
    put e (ofKeys keys entries) = ofKeys keys (entries ++ [e]) := by
  induction keys with
  | nil => cases h
  | cons k keys ih =>
    obtain ⟨hk, nodup⟩ := List.nodup_cons.1 nodup
    simp only [ofKeys, List.map_cons, put]
    by_cases same : MonthKey.ofDate e.date = k
    · rw [if_pos same, inMonth_concat, if_pos same]
      exact congrArg _ (ofKeys_concat_of_notMem (same ▸ hk)).symm
    · rw [if_neg same, inMonth_concat, if_neg same]
      exact congrArg _ (ih nodup ((List.mem_cons.1 h).resolve_left same))

/-- An entry of another month opens a new bucket behind the others. -/
theorem put_ofKeys_of_notMem (h : MonthKey.ofDate e.date ∉ keys) :
    put e (ofKeys keys entries) =
      ofKeys keys (entries ++ [e]) ++ [(MonthKey.ofDate e.date, [e])] := by
  induction keys with
  | nil => rfl
  | cons k keys ih =>
    obtain ⟨hk, h⟩ := List.ne_and_not_mem_of_not_mem_cons h
    simp only [ofKeys, List.map_cons, put]
    rw [if_neg hk, inMonth_concat, if_neg hk]
    exact congrArg _ (ih h)

theorem flatMap_put (buckets : Buckets) :
    ((put e buckets).flatMap Prod.snd).Perm (buckets.flatMap Prod.snd ++ [e]) := by
  induction buckets with
  | nil => exact .refl _
  | cons b buckets ih =>
    obtain ⟨k, bucket⟩ := b
    simp only [put, List.flatMap_cons]
    split
    · rw [List.flatMap_cons, List.append_assoc, List.append_assoc]
      exact .append_left _ List.perm_append_comm
    · rw [List.flatMap_cons, List.append_assoc]
      exact .append_left _ ih

end Put

/-- The pass finds the months of the entries and the entries of each of them. -/
theorem ofEntries_eq (entries : List Entry) :
    ofEntries entries = ofKeys (MonthKey.ofEntries entries) entries := by
  induction entries using List.reverseRecOn with
  | nil => rfl
  | append_singleton entries e ih =>
    rw [ofEntries_concat, ih]
    by_cases h : MonthKey.ofDate e.date ∈ MonthKey.ofEntries entries
    · rw [put_ofKeys_of_mem (MonthKey.nodup_ofEntries entries) h,
        MonthKey.ofEntries_concat_of_mem h]
    · have first : inMonth (MonthKey.ofDate e.date) (entries ++ [e]) = [e] := by
        rw [inMonth_concat, if_pos rfl, inMonth_eq_nil h]
        rfl
      rw [put_ofKeys_of_notMem h, MonthKey.ofEntries_concat_of_notMem h]
      simp only [ofKeys, List.map_append, List.map_cons, List.map_nil, first]

theorem flatMap_ofEntries (entries : List Entry) :
    ((ofEntries entries).flatMap Prod.snd).Perm entries := by
  induction entries using List.reverseRecOn with
  | nil => exact .refl _
  | append_singleton entries e ih =>
    rw [ofEntries_concat]
    exact (flatMap_put _).trans (ih.append_right [e])

/-- Every entry is in the one bucket of its month, and the order of the entries is kept. -/
structure Partitions (buckets : Buckets) (entries : List Entry) : Prop where
  keys_nodup : (buckets.map Prod.fst).Nodup
  of_month : ∀ b ∈ buckets, ∀ e ∈ b.2, MonthKey.ofDate e.date = b.1
  keeps_order : ∀ b ∈ buckets, b.2.Sublist entries
  keeps_all : (buckets.flatMap Prod.snd).Perm entries

theorem map_fst_ofEntries (entries : List Entry) :
    (ofEntries entries).map Prod.fst = MonthKey.ofEntries entries := by
  rw [ofEntries_eq, ofKeys, List.map_map]
  exact List.map_id _

theorem eq_inMonth_of_mem {entries : List Entry} {b : MonthKey × List Entry}
    (hb : b ∈ ofEntries entries) : b.2 = inMonth b.1 entries := by
  rw [ofEntries_eq] at hb
  obtain ⟨k, -, rfl⟩ := List.mem_map.1 hb
  rfl

theorem partitions_ofEntries (entries : List Entry) :
    Partitions (ofEntries entries) entries where
  keys_nodup := by
    rw [map_fst_ofEntries]
    exact MonthKey.nodup_ofEntries entries
  of_month := by
    intro b hb e he
    rw [eq_inMonth_of_mem hb] at he
    exact of_decide_eq_true (List.mem_filter.1 he).2
  keeps_order := by
    intro b hb
    rw [eq_inMonth_of_mem hb]
    exact List.filter_sublist
  keeps_all := flatMap_ofEntries entries

end Buckets

end Worklog
