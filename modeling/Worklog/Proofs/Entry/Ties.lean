import Worklog.Proofs.Decimal.Zero
import Worklog.Proofs.Entry.Order

/-!
# Entries of one key

A sort key takes an absent text for an empty one, an absent rate for a zero one and does not tell
the two zeros apart; that is all that entries of one key may differ in (`sortKey_eq_iff`). What
they add to a sum is therefore alike (`tied_of_sortKey_eq`).
-/

namespace Worklog

open Decimal

theorem rateOrZero_eq_zero {s : Float.Model.UnpackedFloat.Sign} {rate : Option Float}
    (h : IsZero s (rateOrZero rate)) : rateOrZero rate = 0.0 := by
  cases rate with
  | none => rfl
  | some r =>
    by_cases hr : (r == 0.0) = true
    · rw [rateOrZero, if_pos hr]
    · rw [rateOrZero, if_neg hr] at h
      exact absurd (beq_zero_of_isZero h) hr

theorem rateOrZero_eq_of_alike {r r' : Option Float}
    (h : Alike (rateOrZero r) (rateOrZero r')) : rateOrZero r = rateOrZero r' := by
  rcases h with same | ⟨_, _, hr, hr'⟩
  · exact same
  · rw [rateOrZero_eq_zero hr, rateOrZero_eq_zero hr']

namespace Entry

/-- Entries have one key if they differ only in what the key does not tell apart. -/
theorem sortKey_eq_iff {a b : Entry} (ha : a.HasRate) (hb : b.HasRate) :
    a.sortKey = b.sortKey ↔ a.date = b.date ∧ a.sortTexts = b.sortTexts ∧
      Alike a.hours b.hours ∧ rateOrZero a.rate = rateOrZero b.rate := by
  have rates : rank (rateOrZero a.rate) = rank (rateOrZero b.rate) ↔
      rateOrZero a.rate = rateOrZero b.rate :=
    ⟨fun h => rateOrZero_eq_of_alike
      ((alike_iff_rank_eq (rateOrZero_isNaN ha) (rateOrZero_isNaN hb)).2 h), congrArg rank⟩
  rw [alike_iff_rank_eq (isNaN_of_le a.hours_nonneg) (isNaN_of_le b.hours_nonneg), ← rates,
    ← Date.stamp_injective.eq_iff]
  simp only [sortKey, toLex_inj, Prod.mk.injEq]

/-- Whether sums do not tell two entries apart. -/
structure Tied (a b : Entry) : Prop where
  date_eq : a.date = b.date
  hours_alike : Alike a.hours b.hours
  invoiced_alike : Alike a.invoiced b.invoiced

theorem tied_of_sortKey_eq {a b : Entry} (ha : a.HasRate) (hb : b.HasRate)
    (h : a.sortKey = b.sortKey) : Tied a b := by
  obtain ⟨date_eq, -, hours_alike, rate_eq⟩ := (sortKey_eq_iff ha hb).1 h
  refine ⟨date_eq, hours_alike, ?_⟩
  rw [invoiced, invoiced, invoicedAmount, invoicedAmount, rate_eq]
  exact hours_alike.mul _

end Entry

end Worklog
