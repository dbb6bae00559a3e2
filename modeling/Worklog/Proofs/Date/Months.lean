import Worklog.Proofs.Date.Basic

/-!
# Moving dates by months

Moving a date into a month of the calendar changes the number of its month by as many, and its day
only where the new month is shorter (`exists_addMonths`). So a date of the second year or later can
be moved back by up to twelve months, and comes earlier then (`exists_addMonths_neg`).

There is no date where the month would leave the calendar (`exists_addMonths_error`). A date that is
moved stays in its order among others (`addMonths_mono`), and comes later the further it is moved
(`addMonths_strictMono`). Together that is what it is to move a date by months (`Shifts`).
-/

namespace Worklog.Date

theorem daysInMonth_pos (year month : Nat) : 1 ≤ daysInMonth year month :=
  Nat.le_trans (by decide) (le_daysInMonth year month)

theorem ofParts_eq {year month day : Nat} (hy : 1 ≤ year ∧ year ≤ 9999)
    (hm : 1 ≤ month ∧ month ≤ 12) (hd : 1 ≤ day ∧ day ≤ daysInMonth year month) :
    ofParts year month day = .ok ⟨year, month, day, hy.1, hy.2, hm.1, hm.2, hd.1, hd.2⟩ := by
  rw [ofParts, dif_pos hy, dif_pos hm, dif_pos hd]

/-! ## The order of dates by their months -/

/-- A date in an earlier month comes before. -/
theorem lt_of_monthIndex_lt {a b : Date} (h : a.monthIndex < b.monthIndex) : a < b := by
  have ha := a.month_pos
  have hb := b.month_pos
  have hae := a.month_le
  have hbe := b.month_le
  have had := Nat.le_trans a.day_le (daysInMonth_le ..)
  simp only [monthIndex] at h
  change a.stamp < b.stamp
  simp only [stamp]
  omega

theorem monthIndex_le_of_le {a b : Date} (h : a ≤ b) : a.monthIndex ≤ b.monthIndex :=
  Int.not_lt.1 fun lt => not_lt.2 h (lt_of_monthIndex_lt lt)

theorem year_and_month_of_monthIndex_eq {a b : Date} (h : a.monthIndex = b.monthIndex) :
    a.year = b.year ∧ a.month = b.month := by
  have ha := a.month_pos
  have hb := b.month_pos
  have hae := a.month_le
  have hbe := b.month_le
  simp only [monthIndex] at h
  omega

/-- Within a month dates are in the order of their days. -/
theorem le_iff_day_le {a b : Date} (h : a.monthIndex = b.monthIndex) : a ≤ b ↔ a.day ≤ b.day := by
  obtain ⟨year, month⟩ := year_and_month_of_monthIndex_eq h
  change a.stamp ≤ b.stamp ↔ a.day ≤ b.day
  simp only [stamp, year, month]
  omega

/-! ## Where a date is moved -/

/-- A month that lies in the calendar has the date moved there, at most at its last day. -/
theorem exists_addMonths {d : Date} {k : Int} (low : 12 ≤ d.monthIndex + k)
    (high : d.monthIndex + k < 120000) : ∃ e, d.addMonths k = .ok e ∧
      e.monthIndex = d.monthIndex + k ∧ e.day = min d.day (daysInMonth e.year e.month) := by
  -- The new month has a number that is not negative, so division is that of natural numbers.
  obtain ⟨i, hi⟩ : ∃ i : Nat, d.monthIndex + k = i := ⟨(d.monthIndex + k).toNat, by omega⟩
  have quotient : Int.fdiv i 12 = (i : Int) / 12 := Int.fdiv_eq_ediv_of_nonneg i (by decide)
  have remainder : Int.fmod i 12 = (i : Int) % 12 := Int.fmod_eq_emod_of_nonneg i (by decide)
  have year : ((i : Int) / 12).toNat = i / 12 := by omega
  have month : ((i : Int) % 12).toNat = i % 12 := by omega
  have hy : 1 ≤ i / 12 ∧ i / 12 ≤ 9999 := by omega
  have hm : 1 ≤ i % 12 + 1 ∧ i % 12 + 1 ≤ 12 := by omega
  have days := daysInMonth_pos (i / 12) (i % 12 + 1)
  have hd : 1 ≤ min d.day (daysInMonth (i / 12) (i % 12 + 1)) ∧
      min d.day (daysInMonth (i / 12) (i % 12 + 1)) ≤ daysInMonth (i / 12) (i % 12 + 1) :=
    ⟨Nat.le_min.2 ⟨d.day_pos, days⟩, Nat.min_le_right ..⟩
  refine ⟨⟨_, _, _, hy.1, hy.2, hm.1, hm.2, hd.1, hd.2⟩, ?_, ?_, rfl⟩
  · unfold addMonths
    rw [hi]
    simp only [quotient, remainder, year, month]
    rw [if_pos (by omega), ofParts_eq hy hm hd]
  · rw [hi]
    simp only [monthIndex]
    omega

/-- From the second year on there is a day up to twelve months earlier. -/
theorem exists_addMonths_neg {d : Date} {n : Nat} (hd : 2 ≤ d.year) (low : 1 ≤ n) (high : n ≤ 12) :
    ∃ e, d.addMonths (-n) = .ok e ∧ e ≤ d := by
  have hm := d.month_pos
  have hme := d.month_le
  have hy := d.year_le
  have index : d.monthIndex = d.year * 12 + (d.month - 1) := rfl
  obtain ⟨e, he, hi, -⟩ := exists_addMonths (d := d) (k := -n) (by omega) (by omega)
  refine ⟨e, he, le_iff_lt_or_eq.2 (.inl ?_)⟩
  exact lt_of_monthIndex_lt (by omega)

/-- A month that lies outside the calendar has no date. -/
theorem exists_addMonths_error {d : Date} {k : Int}
    (h : d.monthIndex + k < 12 ∨ 120000 ≤ d.monthIndex + k) :
    ∃ fault, d.addMonths k = .error fault := by
  have quotient := Int.fdiv_eq_ediv_of_nonneg (d.monthIndex + k) (by decide : (0 : Int) ≤ 12)
  unfold addMonths
  simp only [quotient]
  rw [if_neg (by omega)]
  exact ⟨_, rfl⟩

/-- A date that was moved lies as many months later, at most at the last day. -/
theorem moved_of_addMonths {d e : Date} {k : Int} (h : d.addMonths k = .ok e) :
    e.monthIndex = d.monthIndex + k ∧ e.day = min d.day (daysInMonth e.year e.month) := by
  by_cases inside : 12 ≤ d.monthIndex + k ∧ d.monthIndex + k < 120000
  · obtain ⟨e', he, month, day⟩ := exists_addMonths inside.1 inside.2
    cases h.symm.trans he
    exact ⟨month, day⟩
  · obtain ⟨fault, failed⟩ := exists_addMonths_error (d := d) (k := k) (by omega)
    cases h.symm.trans failed

/-- Dates that are moved alike stay in order. -/
theorem addMonths_mono {c d c' d' : Date} {k : Int} (h : c ≤ d) (hc : c.addMonths k = .ok c')
    (hd : d.addMonths k = .ok d') : c' ≤ d' := by
  obtain ⟨month, day⟩ := moved_of_addMonths hc
  obtain ⟨month', day'⟩ := moved_of_addMonths hd
  rcases Int.lt_or_eq_of_le (monthIndex_le_of_le h) with lt | same
  · exact le_iff_lt_or_eq.2 (.inl (lt_of_monthIndex_lt (by omega)))
  · have same' : c'.monthIndex = d'.monthIndex := by omega
    obtain ⟨hy, hm⟩ := year_and_month_of_monthIndex_eq same'
    have days := (le_iff_day_le same).1 h
    rw [le_iff_day_le same', day, day', hy, hm]
    omega

/-- The further a date is moved, the later it is. -/
theorem addMonths_strictMono {d e e' : Date} {k l : Int} (h : k < l) (he : d.addMonths k = .ok e)
    (he' : d.addMonths l = .ok e') : e < e' := by
  obtain ⟨month, -⟩ := moved_of_addMonths he
  obtain ⟨month', -⟩ := moved_of_addMonths he'
  exact lt_of_monthIndex_lt (by omega)

end Worklog.Date

namespace Worklog

/-! ## Numbers of months -/

/-- The number of a month, of which each year has twelve. -/
def monthNumber (year month : Nat) : Int :=
  12 * year + month

/-- The number is that of a month of the years 1 to 9999. -/
def IsMonthNumber (n : Int) : Prop :=
  ∃ year month : Nat, (1 ≤ year ∧ year ≤ 9999) ∧ (1 ≤ month ∧ month ≤ 12) ∧
    monthNumber year month = n

theorem isMonthNumber_iff {n : Int} : IsMonthNumber n ↔ 13 ≤ n ∧ n ≤ 120000 := by
  constructor
  · rintro ⟨year, month, hy, hm, rfl⟩
    rw [monthNumber]
    omega
  · intro h
    refine ⟨((n - 1) / 12).toNat, ((n - 1) % 12).toNat + 1, ?_, ?_, ?_⟩
    · omega
    · omega
    · rw [monthNumber]
      omega

namespace Date

/-- The number of the month of a date. -/
def monthNumber (d : Date) : Int :=
  Worklog.monthNumber d.year d.month

theorem monthNumber_eq (d : Date) : d.monthNumber = d.monthIndex + 1 := by
  rw [monthNumber, Worklog.monthNumber, monthIndex]
  omega

/-- What it is to move a date by months. -/
structure Shifts (d : Date) (k : Int) : Prop where
  fails_iff : (∃ fault, d.addMonths k = .error fault) ↔ ¬ IsMonthNumber (d.monthNumber + k)
  number_eq : ∀ e, d.addMonths k = .ok e → e.monthNumber = d.monthNumber + k
  day_eq : ∀ e, d.addMonths k = .ok e → e.day = min d.day (daysInMonth e.year e.month)
  mono : ∀ d' e e', d ≤ d' → d.addMonths k = .ok e → d'.addMonths k = .ok e' → e ≤ e'
  strictMono : ∀ l e e', k < l → d.addMonths k = .ok e → d.addMonths l = .ok e' → e < e'

theorem shifts (d : Date) (k : Int) : d.Shifts k where
  fails_iff := by
    rw [isMonthNumber_iff, monthNumber_eq]
    constructor
    · rintro ⟨fault, failed⟩ inside
      obtain ⟨e, he, -⟩ := exists_addMonths (d := d) (k := k) (by omega) (by omega)
      cases he.symm.trans failed
    · intro outside
      exact exists_addMonths_error (by omega)
  number_eq e he := by
    have month := (moved_of_addMonths he).1
    rw [monthNumber_eq, monthNumber_eq]
    omega
  day_eq e he := (moved_of_addMonths he).2
  mono _ _ _ h he he' := addMonths_mono h he he'
  strictMono _ _ _ h he he' := addMonths_strictMono h he he'

end Date

end Worklog
