import Worklog.Entry
import Worklog.Proofs.Date.Basic
import Worklog.Proofs.Decimal.Order
import Worklog.Proofs.Sorting.Sorted

/-!
# The order of entries

Entries are compared as their sort keys are, one part after the other, as long as their rates are
numbers (`isBefore_iff`). So the comparison orders such entries (`orders_isBefore`), and sorting
puts them in the order of their keys (`pairwise_sort`).
-/

namespace Worklog

open Decimal

theorem rateOrZero_isNaN {rate : Option Float} (h : ∀ r ∈ rate, r.isNaN = false) :
    (rateOrZero rate).isNaN = false := by
  have h0 : (0.0 : Float).isNaN = false := by decide +kernel
  cases rate with
  | none => exact h0
  | some r =>
    simp only [rateOrZero]
    split
    · exact h0
    · exact h r rfl

namespace Entry

/-- What entries are sorted by: day, texts, hours and rate. -/
def sortKey (e : Entry) : ℕ ×ₗ List String ×ₗ (ℤ ×ₗ ℤ ×ₗ ℤ) ×ₗ (ℤ ×ₗ ℤ ×ₗ ℤ) :=
  toLex (e.date.stamp, toLex (e.sortTexts, toLex (rank e.hours, rank (rateOrZero e.rate))))

theorem textsBefore_eq {as bs : List String} (h : as.length = bs.length) :
    textsBefore as bs = if as = bs then none else some (decide (as < bs)) := by
  induction as generalizing bs with
  | nil =>
    cases bs with
    | nil => rfl
    | cons b bs => cases h
  | cons a as ih =>
    cases bs with
    | nil => cases h
    | cons b bs =>
      simp only [textsBefore, List.length_cons, Nat.add_right_cancel_iff] at h ⊢
      by_cases hab : a = b
      · subst hab
        rw [if_pos rfl, ih h]
        simp only [List.cons.injEq, true_and, List.cons_lt_cons_self]
      · rw [if_neg hab, if_neg (fun hc => hab (List.cons.inj hc).1)]
        simp only [List.cons_lt_cons_iff, hab, false_and, or_false]

/-- Whether the rate of an entry, if it has one, is a number. -/
def HasRate (e : Entry) : Prop :=
  ∀ r ∈ e.rate, r.isNaN = false

/-- Entries are compared as their keys are. -/
theorem isBefore_iff {a b : Entry} (ha : a.HasRate) (hb : b.HasRate) :
    a.isBefore b = true ↔ a.sortKey < b.sortKey := by
  have hlen : a.sortTexts.length = b.sortTexts.length := rfl
  have hha := isNaN_of_le a.hours_nonneg
  have hhb := isNaN_of_le b.hours_nonneg
  simp only [isBefore, sortKey, Prod.Lex.toLex_lt_toLex, textsBefore_eq hlen]
  by_cases hd : a.date = b.date
  · by_cases ht : a.sortTexts = b.sortTexts
    · simp only [hd, ht, ne_eq, not_true_eq_false, if_false, if_true, lt_irrefl, true_and, false_or]
      by_cases hh : rank a.hours = rank b.hours
      · have heq := (beq_iff_rank_eq hha hhb).2 hh
        rw [bne, heq]
        simp only [Bool.not_true, Bool.false_eq_true, if_false, decide_eq_true_eq, hh, lt_irrefl,
          true_and, false_or]
        exact lt_iff_rank_lt (rateOrZero_isNaN ha) (rateOrZero_isNaN hb)
      · have hne : (a.hours == b.hours) = false :=
          Bool.eq_false_iff.2 fun h => hh ((beq_iff_rank_eq hha hhb).1 h)
        rw [bne, hne]
        simp only [Bool.not_false, if_true, decide_eq_true_eq, hh, false_and, or_false]
        exact lt_iff_rank_lt hha hhb
    · simp only [hd, ht, ne_eq, not_true_eq_false, if_false, lt_irrefl, true_and, false_or,
        decide_eq_true_eq, false_and, or_false]
  · have hs : a.date.stamp ≠ b.date.stamp := fun h => hd (Date.stamp_injective h)
    simp only [ne_eq, hd, not_false_eq_true, if_true, hs, false_and, or_false, decide_eq_true_eq]
    rfl

theorem isBefore_eq_false_iff {a b : Entry} (ha : a.HasRate) (hb : b.HasRate) :
    a.isBefore b = false ↔ b.sortKey ≤ a.sortKey := by
  rw [← not_lt, ← isBefore_iff ha hb, Bool.not_eq_true]

theorem orders_isBefore : Sorting.Orders isBefore HasRate where
  asymm := by
    intro a b ha hb h
    rw [isBefore_eq_false_iff hb ha]
    exact ((isBefore_iff ha hb).1 h).le
  trans := by
    intro a b c ha hb hc hba hcb
    rw [isBefore_eq_false_iff hb ha] at hba
    rw [isBefore_eq_false_iff hc hb] at hcb
    rw [isBefore_eq_false_iff hc ha]
    exact hba.trans hcb

/-- Sorted entries stand in the order of their keys. -/
theorem pairwise_sort {entries : List Entry} (h : ∀ e ∈ entries, e.HasRate) :
    (Sorting.sort isBefore entries).Pairwise fun a b => a.sortKey ≤ b.sortKey := by
  have sorted := orders_isBefore.inOrder_sort h
  refine sorted.imp_of_mem fun {a b} ha hb hab => ?_
  have rated : ∀ e ∈ Sorting.sort isBefore entries, e.HasRate := fun e he =>
    h e ((Sorting.sort_perm isBefore entries).mem_iff.1 he)
  exact (isBefore_eq_false_iff (rated b hb) (rated a ha)).1 hab

end Entry

end Worklog
