import Worklog.Proofs.Decimal.Reading
import Worklog.Proofs.Field.Rule

/-!
# Canonical values

What a rule has accepted it accepts again as it is (`Rule.accept_of_accept`). Two values of a kind
lie to each other in one way, whichever of them is asked, unless one of them is NaN
(`Value.exists_ordering`); so a range that is not reversed is in order (`Value.atMost?_of_less?`).
-/

namespace Worklog

/-! ## The order of values -/

namespace Value

/-- Whether a value has a place in the order of its kind, which NaN has not. -/
def IsOrdered : Value → Prop
  | .float x => x.isNaN = false
  | _ => True

theorem Relation.ofOrdering_compare {α : Type} [LinearOrder α] (x y : α) :
    ofOrdering (compare x y) = if x < y then .less else if x = y then .equal else .greater := by
  rcases lt_trichotomy x y with h | h | h
  · rw [if_pos h, compare_lt_iff_lt.2 h]
    rfl
  · rw [if_neg h.not_lt, if_pos h, compare_eq_iff_eq.2 h]
    rfl
  · rw [if_neg h.asymm, if_neg h.ne', compare_gt_iff_gt.2 h]
    rfl

theorem relate?_text (s t : String) :
    relate? (.text s) (.text t) = some (.ofOrdering (compare s t)) := by
  rw [Relation.ofOrdering_compare]
  rfl

theorem relate?_date (d e : Date) :
    relate? (.date d) (.date e) = some (.ofOrdering (compare d.stamp e.stamp)) := by
  simp only [Relation.ofOrdering_compare, relate?, Date.stamp_injective.eq_iff]
  rfl

theorem relate?_float {x y : Float} (hx : x.isNaN = false) (hy : y.isNaN = false) :
    relate? (.float x) (.float y) =
      some (.ofOrdering (compare (Decimal.rank x) (Decimal.rank y))) := by
  simp only [Relation.ofOrdering_compare, relate?, relateFloats, gt_iff_lt,
    Decimal.lt_iff_rank_lt hx hy, Decimal.lt_iff_rank_lt hy hx, Decimal.beq_iff_rank_eq hx hy]
  split
  · rfl
  · rename_i less
    split
    · rfl
    · rename_i equal
      rw [if_pos (lt_of_le_of_ne (not_lt.1 less) (Ne.symm equal))]

theorem exists_compareWithInt? {x : Float} (hx : x.isNaN = false) (n : Int) :
    ∃ o, Decimal.compareWithInt? x n = some o := by
  unfold Decimal.compareWithInt?
  split
  · rename_i h
    exact absurd h (Decimal.exact_ne_nan hx)
  · exact ⟨_, rfl⟩
  · exact ⟨_, rfl⟩

/-- Of two values of a kind, each lies to the other as the other lies to it, turned around. -/
theorem exists_ordering {k : Rule.Kind} {a b : Value} (ha : a.OfKind k) (hb : b.OfKind k)
    (oa : a.IsOrdered) (ob : b.IsOrdered) : ∃ o : Ordering,
      a.relate? b = some (.ofOrdering o) ∧ b.relate? a = some (.ofOrdering o.swap) := by
  cases k with
  | number =>
    match a, b, ha, hb with
    | .int m, .int n, _, _ =>
      refine ⟨compare m n, rfl, ?_⟩
      rw [← Std.OrientedOrd.eq_swap]
      rfl
    | .float x, .int n, _, _ =>
      obtain ⟨o, ho⟩ := exists_compareWithInt? oa n
      simp only [relate?, ho]
      exact ⟨o, rfl, rfl⟩
    | .int n, .float x, _, _ =>
      obtain ⟨o, ho⟩ := exists_compareWithInt? ob n
      simp only [relate?, ho]
      exact ⟨o.swap, rfl, by rw [Ordering.swap_swap]⟩
    | .float x, .float y, _, _ =>
      refine ⟨_, relate?_float oa ob, ?_⟩
      rw [← Std.OrientedOrd.eq_swap, relate?_float ob oa]
  | text =>
    obtain ⟨s, rfl⟩ := ha
    obtain ⟨t, rfl⟩ := hb
    refine ⟨_, relate?_text s t, ?_⟩
    rw [← Std.OrientedOrd.eq_swap, relate?_text]
  | date =>
    obtain ⟨d, rfl⟩ := ha
    obtain ⟨e, rfl⟩ := hb
    refine ⟨_, relate?_date d e, ?_⟩
    rw [← Std.OrientedOrd.eq_swap, relate?_date]

/-- Of two values of a kind, the first is at most the second if the second is not less. -/
theorem atMost?_of_less? {k : Rule.Kind} {a b : Value} (ha : a.OfKind k) (hb : b.OfKind k)
    (oa : a.IsOrdered) (ob : b.IsOrdered) (h : b.less? a ≠ some true) :
    a.atMost? b = some true := by
  obtain ⟨o, hab, hba⟩ := exists_ordering ha hb oa ob
  rw [less?, hba] at h
  rw [atMost?, hab]
  cases o with
  | lt => rfl
  | eq => rfl
  | gt => exact absurd rfl h

end Value

/-! ## Accepting again -/

namespace Rule

/-- What a rule has accepted it accepts as it is; it is the value given or an integer. -/
theorem accept_of_accept {r : Rule} {v w : Value} (hv : v.OfKind r.kind) (h : r.accept v = .ok w) :
    r.accept w = .ok w ∧ (w = v ∨ ∃ n, w = .int n) := by
  cases r with
  | year =>
    obtain ⟨n, hn, rfl⟩ := int_of_wholeWithin hv h
    exact ⟨if_pos hn, .inr ⟨n, rfl⟩⟩
  | month =>
    obtain ⟨n, hn, rfl⟩ := int_of_wholeWithin hv h
    exact ⟨if_pos hn, .inr ⟨n, rfl⟩⟩
  | project =>
    obtain ⟨s, rfl⟩ := hv
    obtain ⟨rfl, -⟩ := eq_of_notBlank h
    exact ⟨h, .inl rfl⟩
  | service =>
    obtain ⟨s, rfl⟩ := hv
    obtain ⟨rfl, -⟩ := eq_of_notBlank h
    exact ⟨h, .inl rfl⟩
  | category =>
    obtain ⟨s, rfl⟩ := hv
    obtain ⟨rfl, -⟩ := eq_of_notBlank h
    exact ⟨h, .inl rfl⟩
  | utilization =>
    obtain rfl := eq_of_notNegative h
    exact ⟨h, .inl rfl⟩
  | value =>
    obtain rfl := eq_of_notNegative h
    exact ⟨h, .inl rfl⟩
  | date => cases h; exact ⟨rfl, .inl rfl⟩
  | client => cases h; exact ⟨rfl, .inl rfl⟩
  | hours => cases h; exact ⟨rfl, .inl rfl⟩

end Rule

end Worklog
