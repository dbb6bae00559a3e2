import Worklog.Proofs.Entry.Ties

/-!
# Sorting entries in another order

Sorted entries have one list of keys, however they were arranged before
(`map_sortKey_sort_eq`). They are themselves the same for every arrangement exactly if no two of
them that differ have one key: sorting leaves entries of one key as it finds them
(`exists_sort_ne`), and otherwise the keys tell where each entry goes (`sort_eq_of_perm`).
-/

namespace Worklog

section Swap

variable {α β : Type} {f : α → β} {a b : α} (hab : a ≠ b) (hf : f a = f b)
include hab hf

theorem exists_swapped (s t u : List α) :
    ∃ bs, (s ++ a :: (t ++ b :: u)).Perm bs ∧ bs.map f = (s ++ a :: (t ++ b :: u)).map f ∧
      bs ≠ s ++ a :: (t ++ b :: u) := by
  have front : (a :: (t ++ b :: u)).Perm (a :: b :: (t ++ u)) := List.perm_middle.cons a
  have back : (b :: a :: (t ++ u)).Perm (b :: (t ++ a :: u)) := List.perm_middle.symm.cons b
  refine ⟨s ++ b :: (t ++ a :: u), (front.trans ((List.Perm.swap b a _).trans back)).append_left s,
    by simp [hf], fun h => ?_⟩
  exact hab (List.cons.inj (List.append_cancel_left h)).1.symm

/-- Two elements of a list that a function takes to one value can change places. -/
theorem exists_perm_ne {as : List α} (ha : a ∈ as) (hb : b ∈ as) :
    ∃ bs, as.Perm bs ∧ bs.map f = as.map f ∧ bs ≠ as := by
  obtain ⟨s, t, rfl⟩ := List.append_of_mem ha
  rcases List.mem_append.1 hb with hb | hb
  · obtain ⟨u, v, rfl⟩ := List.append_of_mem hb
    rw [List.append_assoc, List.cons_append]
    exact exists_swapped hab.symm hf.symm u v t
  · obtain ⟨u, v, rfl⟩ := List.append_of_mem ((List.mem_cons.1 hb).resolve_left hab.symm)
    exact exists_swapped hab hf s u v

end Swap

namespace Entry

open Sorting

variable {as bs : List Entry}

theorem hasRate_sort (rated : ∀ e ∈ as, e.HasRate) : ∀ e ∈ sort isBefore as, e.HasRate :=
  fun e he => rated e ((sort_perm isBefore as).mem_iff.1 he)

theorem hasRate_of_perm (h : as.Perm bs) (rated : ∀ e ∈ as, e.HasRate) : ∀ e ∈ bs, e.HasRate :=
  fun e he => rated e (h.mem_iff.2 he)

theorem sort_perm_sort (h : as.Perm bs) : (sort isBefore as).Perm (sort isBefore bs) :=
  (sort_perm isBefore as).trans (h.trans (sort_perm isBefore bs).symm)

theorem map_sortKey_sort_eq (rated : ∀ e ∈ as, e.HasRate) (h : as.Perm bs) :
    (sort isBefore as).map sortKey = (sort isBefore bs).map sortKey :=
  ((sort_perm_sort h).map sortKey).eq_of_pairwise' (List.pairwise_map.2 (pairwise_sort rated))
    (List.pairwise_map.2 (pairwise_sort (hasRate_of_perm h rated)))

theorem sort_eq_of_perm (rated : ∀ e ∈ as, e.HasRate)
    (apart : ∀ a ∈ as, ∀ b ∈ as, a.sortKey = b.sortKey → a = b) (h : as.Perm bs) :
    sort isBefore as = sort isBefore bs := by
  refine (sort_perm_sort h).eq_of_pairwise (fun a b ha hb hab hba => ?_) (pairwise_sort rated)
    (pairwise_sort (hasRate_of_perm h rated))
  have ha := (sort_perm isBefore as).mem_iff.1 ha
  have hb := h.mem_iff.2 ((sort_perm isBefore bs).mem_iff.1 hb)
  exact apart a ha b hb (hab.antisymm hba)

theorem sort_eq_self (rated : ∀ e ∈ as, e.HasRate)
    (h : as.Pairwise fun a b => a.sortKey ≤ b.sortKey) : sort isBefore as = as :=
  Sorting.sort_eq_self <| h.imp_of_mem fun ha hb hab =>
    (isBefore_eq_false_iff (rated _ hb) (rated _ ha)).2 hab

/-- Entries that differ and have one key can be arranged so that they are sorted otherwise. -/
theorem exists_sort_ne (rated : ∀ e ∈ as, e.HasRate) {a b : Entry} (ha : a ∈ as) (hb : b ∈ as)
    (hab : a ≠ b) (hkey : a.sortKey = b.sortKey) :
    ∃ bs, as.Perm bs ∧ sort isBefore bs ≠ sort isBefore as := by
  have perm := sort_perm isBefore as
  obtain ⟨bs, hbs, keys, hne⟩ :=
    exists_perm_ne hab hkey (perm.mem_iff.2 ha) (perm.mem_iff.2 hb)
  have arranged := perm.symm.trans hbs
  have sorted : bs.Pairwise fun a b => a.sortKey ≤ b.sortKey := by
    rw [← List.pairwise_map, keys, List.pairwise_map]
    exact pairwise_sort rated
  exact ⟨bs, arranged, by rwa [sort_eq_self (hasRate_of_perm arranged rated) sorted]⟩

/-- The chosen entries are sorted in one way only if no two that differ have one key. -/
theorem sort_filter_eq_iff (rated : ∀ e ∈ as, e.HasRate) (choice : Entry → Bool) :
    (∀ bs, as.Perm bs → sort isBefore (bs.filter choice) = sort isBefore (as.filter choice)) ↔
      ∀ a ∈ as.filter choice, ∀ b ∈ as.filter choice, a.sortKey = b.sortKey → a = b := by
  have kept : ∀ e ∈ as.filter choice, e.HasRate := fun e he => rated e (List.mem_of_mem_filter he)
  constructor
  · intro same a ha b hb hkey
    by_contra hab
    obtain ⟨bs, perm, hne⟩ := exists_sort_ne kept ha hb hab hkey
    -- The entries that are not chosen may stand anywhere.
    have arranged : as.Perm (bs ++ as.filter fun e => !choice e) :=
      (List.filter_append_perm choice as).symm.trans (perm.append_right _)
    have chosen : ∀ e ∈ bs, choice e = true := fun e he =>
      (List.mem_filter.1 (perm.mem_iff.2 he)).2
    have again := same _ arranged
    rw [List.filter_append, List.filter_eq_self.2 chosen, List.filter_filter] at again
    simp only [Bool.and_not_self, List.filter_false, List.append_nil] at again
    exact hne again
  · intro apart bs h
    exact (sort_eq_of_perm kept apart (h.filter choice)).symm

end Entry

end Worklog
