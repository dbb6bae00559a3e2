import Worklog.Date

/-!
# Dates as numbers and in writing

Month and day have two digits each, so different dates have different stamps (`stamp_injective`)
and are written differently (`iso_injective`).
-/

namespace Worklog.Date

/-! ## Stamps -/

/-- The length of a month is at most 31. -/
theorem daysInMonth_le (year month : Nat) : daysInMonth year month ≤ 31 := by
  unfold daysInMonth
  split
  · split <;> omega
  · split <;> omega

/-- The length of a month is at least 28. -/
theorem le_daysInMonth (year month : Nat) : 28 ≤ daysInMonth year month := by
  unfold daysInMonth
  split
  · split <;> omega
  · split <;> omega

theorem stamp_injective : Function.Injective stamp := by
  intro a b h
  have hma := a.month_le
  have hmb := b.month_le
  have hda := Nat.le_trans a.day_le (daysInMonth_le ..)
  have hdb := Nat.le_trans b.day_le (daysInMonth_le ..)
  simp only [stamp] at h
  have year : a.year = b.year := by omega
  have month : a.month = b.month := by omega
  have day : a.day = b.day := by omega
  cases a
  cases b
  simp only [mk.injEq]
  exact ⟨year, month, day⟩

theorem le_iff_lt_or_eq {d e : Date} : d ≤ e ↔ d < e ∨ d = e := by
  change d.stamp ≤ e.stamp ↔ d.stamp < e.stamp ∨ d = e
  rw [Nat.le_iff_lt_or_eq, stamp_injective.eq_iff]

theorem not_lt {d e : Date} : ¬ d < e ↔ e ≤ d :=
  Nat.not_lt

/-! ## The written form -/

theorem ofDigitChars_padded (width n : Nat) : Nat.ofDigitChars 10 (padded width n) 0 = n := by
  rw [padded, List.leftpad, Nat.ofDigitChars_append, Nat.ofDigitChars_replicate_zero,
    Nat.mul_zero, Nat.ofDigitChars_ten_toDigits]

theorem padded_injective (width : Nat) : Function.Injective (padded width) := by
  intro m n h
  rw [← ofDigitChars_padded width m, h, ofDigitChars_padded]

theorem length_padded {width n : Nat} (h : (Nat.toDigits 10 n).length ≤ width) :
    (padded width n).length = width := by
  rw [padded, List.length_leftpad, Nat.max_eq_left h]

theorem length_padded_four {n : Nat} (h : n ≤ 9999) : (padded 4 n).length = 4 :=
  length_padded ((Nat.length_toDigits_le_iff (by decide) (by decide)).2 (by omega))

theorem length_padded_two {n : Nat} (h : n ≤ 99) : (padded 2 n).length = 2 :=
  length_padded ((Nat.length_toDigits_le_iff (by decide) (by decide)).2 (by omega))

theorem isDigit_of_mem_padded {width n : Nat} {c : Char} (h : c ∈ padded width n) :
    c.isDigit = true := by
  rw [padded, List.leftpad, List.mem_append] at h
  rcases h with h | h
  · rw [List.eq_of_mem_replicate h]
    rfl
  · exact Nat.isDigit_of_mem_toDigits (by decide) (by decide) h

/-- A date is written with nothing but digits and hyphens. -/
theorem notMem_iso {c : Char} (hc : c.isDigit = false) (hs : c ≠ '-') (d : Date) :
    c ∉ d.iso.toList := by
  have digits (width n : Nat) : c ∉ padded width n := by
    intro h
    rw [isDigit_of_mem_padded h] at hc
    cases hc
  rw [iso, String.toList_ofList]
  simp [digits, hs]

/-- Different dates are written differently. -/
theorem iso_injective : Function.Injective iso := by
  intro a b h
  have ha := a.year_le
  have hb := b.year_le
  have hma := a.month_le
  have hmb := b.month_le
  have hda := Nat.le_trans a.day_le (daysInMonth_le ..)
  have hdb := Nat.le_trans b.day_le (daysInMonth_le ..)
  simp only [iso, String.ofList_inj, List.append_assoc, List.cons_append] at h
  obtain ⟨hy, h⟩ := List.append_inj h (by
    rw [length_padded_four ha, length_padded_four hb])
  obtain ⟨hm, h⟩ := List.append_inj (List.cons.inj h).2 (by
    rw [length_padded_two (by omega), length_padded_two (by omega)])
  have hd := (List.cons.inj h).2
  have year := padded_injective 4 hy
  have month := padded_injective 2 hm
  have day := padded_injective 2 hd
  cases a
  cases b
  simp only [mk.injEq]
  exact ⟨year, month, day⟩

end Worklog.Date
