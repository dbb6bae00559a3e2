import Worklog.Field.Rule
import Worklog.Proofs.Date.Basic
import Worklog.Query.Test

/-!
# Values that rules accept

What an accepted value is, rule by rule (`Rule.Takes`, `takes_of_accept`), and how such values
compare. A test suits a rule if its values are such and its range, if it asks for one, is not
reversed (`Test.Suits`).
-/

namespace Worklog

/-! ## Comparing values -/

namespace Value

theorem same_int_iff {m n : Int} : same (.int m) (.int n) = true ↔ m = n := by
  simp only [same, relate?, beq_iff_eq, Option.some.injEq]
  rcases Int.lt_trichotomy m n with h | h | h
  · rw [Int.compare_eq_lt.2 h]
    exact ⟨nofun, fun e => absurd e (by omega)⟩
  · rw [Int.compare_eq_eq.2 h]
    exact ⟨fun _ => h, fun _ => rfl⟩
  · rw [Int.compare_eq_gt.2 h]
    exact ⟨nofun, fun e => absurd e (by omega)⟩

theorem same_text_iff {s t : String} : same (.text s) (.text t) = true ↔ s = t := by
  simp only [same, relate?, beq_iff_eq, Option.some.injEq]
  by_cases h : s = t
  · subst h
    rw [if_neg (String.lt_irrefl s), if_pos rfl]
    exact iff_of_true rfl rfl
  · by_cases hl : s < t
    · simp [h, hl]
    · simp [h, hl]

theorem less?_date (d e : Date) : less? (.date d) (.date e) = some (decide (d < e)) := by
  simp only [less?, relate?, Option.map_some, Option.some.injEq]
  by_cases h : d < e
  · simp [h]
  · rw [if_neg h, decide_eq_false h]
    by_cases h' : d = e
    · rw [if_pos h']; rfl
    · rw [if_neg h']; rfl

theorem atMost?_date (d e : Date) : atMost? (.date d) (.date e) = some (decide (d ≤ e)) := by
  simp only [atMost?, relate?, Option.map_some, Option.some.injEq, Date.le_iff_lt_or_eq]
  by_cases h : d < e
  · simp [h]
  · rw [if_neg h]
    by_cases h' : d = e
    · rw [if_pos h']; simp [h']
    · rw [if_neg h']; simp [h, h']

/-- Whether a value is a number. -/
def IsNumber : Value → Prop
  | .int _ | .float _ => True
  | _ => False

/-- Two numbers always lie to each other in some way. -/
theorem IsNumber.relate? {a b : Value} (ha : a.IsNumber) (hb : b.IsNumber) :
    ∃ r, a.relate? b = some r := by
  cases a <;> cases ha <;> cases b <;> cases hb <;> exact ⟨_, rfl⟩

/-- Whether a value is of a kind. -/
def OfKind (v : Value) : Rule.Kind → Prop
  | .number => v.IsNumber
  | .text => ∃ s, v = .text s
  | .date => ∃ d, v = .date d

end Value

/-! ## Accepted values -/

namespace Rule

/-- What the values are that a rule accepts. -/
def Takes (r : Rule) (v : Value) : Prop :=
  match r with
  | .year => ∃ n : Int, (1 ≤ n ∧ n ≤ 9999) ∧ v = .int n
  | .month => ∃ n : Int, (1 ≤ n ∧ n ≤ 12) ∧ v = .int n
  | .project => ∃ s, s ≠ "" ∧ v = .text s
  | r => v.OfKind r.kind

theorem int_of_wholeWithin {label : String} {low high : Int} {v w : Value} (hv : v.IsNumber)
    (h : wholeWithin label low high v = .ok w) : ∃ n : Int, (low ≤ n ∧ n ≤ high) ∧ w = .int n := by
  have bounded : ∀ n : Int, (if low ≤ n ∧ n ≤ high then Except.ok (Value.int n)
      else .error (Cause.outOfBounds label low high (.int n))) = .ok w →
      ∃ n : Int, (low ≤ n ∧ n ≤ high) ∧ w = .int n := by
    intro n hn
    split at hn
    · rename_i hb
      cases hn
      exact ⟨n, hb, rfl⟩
    · cases hn
  cases v with
  | int n => exact bounded n h
  | float x =>
    simp only [wholeWithin] at h
    split at h
    · exact bounded _ h
    · cases h
  | text s => cases hv
  | date d => cases hv
  | absent => cases hv

theorem eq_of_notNegative {label : String} {v w : Value} (h : notNegative label v = .ok w) :
    w = v := by
  unfold notNegative at h
  split at h
  · cases h
  · cases h; rfl

theorem eq_of_notBlank {label s : String} {w : Value} (h : notBlank label (.text s) = .ok w) :
    w = .text s ∧ s ≠ "" := by
  simp only [notBlank] at h
  split at h
  · cases h
  · rename_i hb
    cases h
    refine ⟨rfl, ?_⟩
    rintro rfl
    exact hb (by decide)

/-- An accepted value is one that the rule takes. -/
theorem takes_of_accept {r : Rule} {v w : Value} (hv : v.OfKind r.kind) (h : r.accept v = .ok w) :
    r.Takes w := by
  cases r with
  | year => exact int_of_wholeWithin hv h
  | month => exact int_of_wholeWithin hv h
  | project =>
    obtain ⟨s, rfl⟩ := hv
    obtain ⟨hw, hs⟩ := eq_of_notBlank h
    exact ⟨s, hs, hw⟩
  | service =>
    obtain ⟨s, rfl⟩ := hv
    exact ⟨s, (eq_of_notBlank h).1⟩
  | category =>
    obtain ⟨s, rfl⟩ := hv
    exact ⟨s, (eq_of_notBlank h).1⟩
  | utilization => exact eq_of_notNegative h ▸ hv
  | value => exact eq_of_notNegative h ▸ hv
  | date => cases h; exact hv
  | client => cases h; exact hv
  | hours => cases h; exact hv

end Rule

/-- A test of values that the rule accepts, whose range is not reversed. -/
def Test.Suits (r : Rule) : Test Value → Prop
  | .compare _ v => r.Takes v
  | .range low high => r.Takes low ∧ r.Takes high ∧ high.less? low ≠ some true

theorem Test.Suits.forall_takes {r : Rule} {t : Test Value} (h : t.Suits r) :
    ∀ v ∈ t.value :: t.upper?.toList, r.Takes v := by
  cases t with
  | compare op v =>
    rw [Suits] at h
    simpa [Test.value, Test.upper?] using h
  | range low high =>
    rw [Suits] at h
    simpa [Test.value, Test.upper?] using ⟨h.1, h.2.1⟩

theorem Test.Suits.value {r : Rule} {t : Test Value} (h : t.Suits r) : r.Takes t.value :=
  h.forall_takes _ (List.mem_cons_self ..)

/-- A test of days asks for those from one day to another. -/
theorem Test.Suits.days {t : Test Value} (h : t.Suits .date) :
    ∃ start stop : Date, start ≤ stop ∧ t.value = .date start ∧
      t.upper?.getD t.value = .date stop := by
  cases t with
  | compare op v =>
    obtain ⟨d, rfl⟩ := h
    exact ⟨d, d, Nat.le_refl _, rfl, rfl⟩
  | range low high =>
    obtain ⟨⟨start, rfl⟩, ⟨stop, rfl⟩, hr⟩ := h
    rw [Value.less?_date] at hr
    refine ⟨start, stop, Date.not_lt.1 fun hl => hr ?_, rfl, rfl⟩
    rw [decide_eq_true hl]

end Worklog
