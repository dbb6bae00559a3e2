import Worklog.Field.Matcher
import Worklog.Proofs.Chain
import Worklog.Proofs.Field.Rule

/-!
# Matchers that never fail

A matcher judges every entry if its test suits the rule and its operator, where the rule compares
with a threshold, is one that thresholds have (`Rule.judges_of_suits`). Predicates whose matchers
judge every entry keep those that all of them admit (`applyPredicates_eq`).
-/

namespace Worklog

variable {settings : Settings}

/-- The judgement of a matcher that may fail; a failure does not admit. -/
def judgement (matcher : Except Failure (Entry → Except Failure Bool)) (e : Entry) : Bool :=
  match matcher with
  | .error _ => false
  | .ok judge =>
    match judge e with
    | .error _ => false
    | .ok admitted => admitted

/-- The matcher can be made, and judges every entry. -/
def JudgesAll (matcher : Except Failure (Entry → Except Failure Bool)) : Prop :=
  ∃ judge, matcher = .ok judge ∧ ∀ e, judge e = .ok (judgement matcher e)

theorem JudgesAll.of_ok {matcher : Except Failure (Entry → Except Failure Bool)}
    {judge : Entry → Except Failure Bool} (hm : matcher = .ok judge)
    (hj : ∀ e, ∃ admitted, judge e = .ok admitted) : JudgesAll matcher := by
  refine ⟨judge, hm, fun e => ?_⟩
  obtain ⟨admitted, he⟩ := hj e
  rw [hm, judgement, he]

/-! ## Rules -/

/-- The operator of a test is one that thresholds have. -/
def Test.HasThreshold : Test Value → Prop
  | .compare op _ => op ∈ FieldHandler.thresholds
  | .range _ _ => True

namespace Rule

/-- Whether a test of the rule admits an entry. -/
def admits (r : Rule) (t : Test Value) (settings : Settings) (e : Entry) : Bool :=
  judgement (r.matcher t settings) e

theorem isWithin_ok {v low high : Value} (hl : v.IsNumber) (h₁ : low.IsNumber)
    (h₂ : high.IsNumber) : ∃ b, v.isWithin low high = .ok b := by
  obtain ⟨r₁, hr₁⟩ := h₁.relate? hl
  obtain ⟨r₂, hr₂⟩ := hl.relate? h₂
  unfold Value.isWithin Value.atMost?
  rw [hr₁, hr₂]
  simp only [Option.map_some, comparable, bind, Except.bind]
  split
  · exact ⟨_, rfl⟩
  · exact ⟨_, rfl⟩

theorem comparable_atMost?_ok {a b : Value} (ha : a.IsNumber) (hb : b.IsNumber) :
    ∃ c, comparable (a.atMost? b) = .ok c := by
  obtain ⟨r, hr⟩ := ha.relate? hb
  rw [Value.atMost?, hr]
  exact ⟨_, rfl⟩

theorem comparable_less?_ok {a b : Value} (ha : a.IsNumber) (hb : b.IsNumber) :
    ∃ c, comparable (a.less? b) = .ok c := by
  obtain ⟨r, hr⟩ := ha.relate? hb
  rw [Value.less?, hr]
  exact ⟨_, rfl⟩

/-- A threshold can be compared with every number. -/
theorem threshold_ok {t : Test Value} (hv : ∀ v ∈ t.value :: t.upper?.toList, v.IsNumber)
    (ht : t.HasThreshold) :
    ∃ check, t.threshold = .ok check ∧ ∀ x, ∃ b, check (.float x) = .ok b := by
  cases t with
  | range low high =>
    refine ⟨_, rfl, fun x => isWithin_ok trivial (hv low ?_) (hv high ?_)⟩
    · simp [Test.value]
    · simp [Test.upper?]
  | compare op low =>
    have hl : low.IsNumber := hv low (by simp [Test.value])
    simp only [Test.HasThreshold, FieldHandler.thresholds, List.mem_cons, List.not_mem_nil,
      or_false] at ht
    rcases ht with rfl | rfl | rfl | rfl | rfl
    · exact ⟨_, rfl, fun x => comparable_atMost?_ok hl trivial⟩
    · exact ⟨_, rfl, fun x => comparable_less?_ok hl trivial⟩
    · exact ⟨_, rfl, fun x => comparable_atMost?_ok hl trivial⟩
    · exact ⟨_, rfl, fun x => comparable_less?_ok trivial hl⟩
    · exact ⟨_, rfl, fun x => comparable_atMost?_ok trivial hl⟩

theorem isWithin_date (d start stop : Date) :
    Value.isWithin (.date d) (.date start) (.date stop) =
      .ok (decide (start ≤ d) && decide (d ≤ stop)) := by
  unfold Value.isWithin
  rw [Value.atMost?_date, Value.atMost?_date]
  by_cases h : start ≤ d
  · simp only [h, decide_true, Bool.true_and]
    rfl
  · simp only [h, decide_false, Bool.false_and]
    rfl

theorem thresholdMatcher_judges {r : Rule} {t : Test Value}
    (hv : ∀ v ∈ t.value :: t.upper?.toList, v.IsNumber) (ht : t.HasThreshold) :
    JudgesAll (r.thresholdMatcher t settings) := by
  obtain ⟨check, hc, hj⟩ := threshold_ok hv ht
  have made : r.thresholdMatcher t settings =
      .ok fun e => check (.float (r.measured settings e)) := by
    rw [thresholdMatcher, hc]
    rfl
  exact .of_ok made fun e => hj _

theorem isMentionedIn_judges {v : Value} (hv : ∃ s, v = .text s)
    (texts : Entry → List (Option String)) :
    JudgesAll (.ok fun e => v.isMentionedIn (texts e)) := by
  obtain ⟨s, rfl⟩ := hv
  exact .of_ok rfl fun e => ⟨_, rfl⟩

/-- A test that suits its rule is judged of every entry. -/
theorem judges_of_suits {r : Rule} {t : Test Value} (h : t.Suits r)
    (ht : r = .utilization ∨ r = .value ∨ r = .hours → t.HasThreshold) :
    JudgesAll (r.matcher t settings) := by
  cases r with
  | year => exact .of_ok rfl fun e => ⟨_, rfl⟩
  | month => exact .of_ok rfl fun e => ⟨_, rfl⟩
  | project =>
    obtain ⟨s, -, hs⟩ := h.value
    exact isMentionedIn_judges ⟨s, hs⟩ _
  | date =>
    obtain ⟨start, stop, -, hv, hu⟩ := h.days
    refine .of_ok rfl fun e => ?_
    rw [hu, hv]
    exact ⟨_, isWithin_date e.date start stop⟩
  | service => exact isMentionedIn_judges h.value _
  | category => exact isMentionedIn_judges h.value _
  | client => exact isMentionedIn_judges h.value _
  | utilization => exact thresholdMatcher_judges h.forall_takes (ht (by simp))
  | value => exact thresholdMatcher_judges h.forall_takes (ht (by simp))
  | hours => exact thresholdMatcher_judges h.forall_takes (ht (by simp))

/-! Closed forms of the rules whose tests a source can evaluate. -/

theorem admits_year {t : Test Value} {n : Int} (h : t.value = .int n) (e : Entry) :
    Rule.year.admits t settings e = (n == (e.date.year : Int)) := by
  change t.value.same (.int e.date.year) = _
  rw [h, Bool.eq_iff_iff, Value.same_int_iff, beq_iff_eq]

theorem admits_month {t : Test Value} {n : Int} (h : t.value = .int n) (e : Entry) :
    Rule.month.admits t settings e = (n == (e.date.month : Int)) := by
  change t.value.same (.int e.date.month) = _
  rw [h, Bool.eq_iff_iff, Value.same_int_iff, beq_iff_eq]

theorem admits_project {t : Test Value} {s : String} (h : t.value = .text s) (e : Entry) :
    Rule.project.admits t settings e = Text.mentions s [e.project] := by
  rw [admits, matcher, h]
  rfl

theorem admits_date {t : Test Value} {r : DateRange} (hv : t.value = .date r.start)
    (hu : t.upper?.getD t.value = .date r.stop) (e : Entry) :
    Rule.date.admits t settings e = r.contains e.date := by
  rw [admits, matcher, hu, hv]
  simp only [judgement, isWithin_date, DateRange.contains]

end Rule

/-! ## Predicates -/

namespace Predicate

/-- Whether a predicate admits an entry. -/
def admits (registry : Registry) (settings : Settings) (p : Predicate) (e : Entry) : Bool :=
  judgement (p.matcher registry settings) e

/-- A predicate is judged by the rule of its handler. -/
theorem matcher_of_get? {registry : Registry} {p : Predicate} {h : FieldHandler}
    (found : registry.get? p.field = some h) :
    p.matcher registry settings = h.rule.matcher p.test settings := by
  rw [matcher, Registry.get, found]
  rfl

theorem admits_of_get? {registry : Registry} {p : Predicate} {h : FieldHandler}
    (found : registry.get? p.field = some h) (e : Entry) :
    p.admits registry settings e = h.rule.admits p.test settings e := by
  rw [admits, matcher_of_get? found, Rule.admits]

end Predicate

section Apply

variable {registry : Registry} {ps : List Predicate}

theorem satisfiesAll_of_judgesAll (h : ∀ p ∈ ps, JudgesAll (p.matcher registry settings)) :
    ∃ judges, ps.mapM (fun p => p.matcher registry settings) = .ok judges ∧
      ∀ e, satisfiesAll e judges = .ok (ps.all fun p => p.admits registry settings e) := by
  induction ps with
  | nil => exact ⟨[], rfl, fun e => rfl⟩
  | cons p ps ih =>
    rw [List.forall_mem_cons] at h
    obtain ⟨judge, hm, hj⟩ := h.1
    obtain ⟨judges, hms, hjs⟩ := ih h.2
    refine ⟨judge :: judges, ?_, fun e => ?_⟩
    · rw [List.mapM_cons, hm, hms]
      rfl
    · rw [satisfiesAll, hj e, List.all_cons, hjs e, Predicate.admits]
      cases judgement (p.matcher registry settings) e <;> rfl

theorem keepMatching_eq_filter {judges : List (Entry → Except Failure Bool)}
    {admitted : Entry → Bool} (h : ∀ e, satisfiesAll e judges = .ok (admitted e))
    (entries : List Entry) : keepMatching judges entries = .ok (entries.filter admitted) := by
  induction entries with
  | nil => rfl
  | cons e es ih =>
    rw [keepMatching, h e, ih, List.filter_cons]
    rfl

/-- Whatever the matchers are, what they keep stands in the entries in the same order. -/
theorem sublist_of_keepMatching {judges : List (Entry → Except Failure Bool)}
    {entries kept : List Entry} (h : keepMatching judges entries = .ok kept) :
    kept.Sublist entries := by
  induction entries generalizing kept with
  | nil =>
    cases h
    exact .slnil
  | cons e es ih =>
    obtain ⟨admitted, -, h⟩ := exists_of_bind_ok h
    obtain ⟨rest, hrest, h⟩ := exists_of_bind_ok h
    cases h
    cases admitted with
    | false => exact (ih hrest).cons e
    | true => exact (ih hrest).cons_cons e

theorem sublist_of_applyPredicates {entries kept : List Entry}
    (h : applyPredicates registry settings ps entries = .ok kept) : kept.Sublist entries := by
  obtain ⟨judges, -, h⟩ := exists_of_bind_ok h
  exact sublist_of_keepMatching h

/-- Predicates that judge every entry keep those that all of them admit. -/
theorem applyPredicates_eq (h : ∀ p ∈ ps, JudgesAll (p.matcher registry settings))
    (entries : List Entry) :
    applyPredicates registry settings ps entries =
      .ok (entries.filter fun e => ps.all fun p => p.admits registry settings e) := by
  obtain ⟨judges, hm, hj⟩ := satisfiesAll_of_judgesAll h
  rw [applyPredicates, hm]
  exact keepMatching_eq_filter hj entries

end Apply

end Worklog
