import Worklog.Proofs.Session.Execution

/-!
# What presentation leaves as it is

VIEW, CHART and SHOW are not looked at when a query is answered, and SIZE only says how long the
trend is. Of two queries with the same predicates, the plans therefore differ in nothing but the
length of the trend, if their periods are the same or if a predicate restricts time, so that no
period counts (`Plan.ofQuery_presented`). The reports then have the same figures, and the same trend
if it is to be as long (`Session.execute_presented`).
-/

namespace Worklog

/-! ## Plans -/

namespace Plan

variable {registry : Registry} {q q' : Query}

theorem windowFor_congr {temporal : Bool} (today : Date)
    (h : temporal = true ∨ q.periodOrDefault = q'.periodOrDefault) :
    windowFor q' temporal today = windowFor q temporal today := by
  rcases h with rfl | h
  · rfl
  · rw [windowFor, windowFor, h]

/-- A plan depends on the predicates, on the period if it counts, and in one part on the size. -/
theorem ofQuery_presented (same : q.predicates = q'.predicates)
    (scope : q.isTimed registry = true ∨ q.periodOrDefault = q'.periodOrDefault) (today : Date) :
    ofQuery registry q' today =
      (ofQuery registry q today).map fun plan => { plan with trendLength := q'.trendLength? } := by
  unfold ofQuery
  rw [← same]
  cases hs : q.predicates.foldlM (sortPredicate registry) {} with
  | error failure => rfl
  | ok s =>
    rw [← temporal_sorted hs] at scope
    dsimp only [bind, Except.bind]
    rw [windowFor_congr today scope]
    cases windowFor q s.temporal today with
    | error failure => rfl
    | ok window =>
      dsimp only
      cases (restrict s.draft window).finish.toExcept <;> rfl

end Plan

/-! ## Reports -/

/-- The report with a trend of another length. -/
def Report.withTrend (length : Option Nat) (r : Report) : Report :=
  { r with trend := Trend.ofMonths (length.map Int.ofNat) r.months }

/-- Two reports that differ at most in their trends. -/
structure Report.SameFigures (r r' : Report) : Prop where
  entries_eq : r.entries = r'.entries
  months_eq : r.months = r'.months
  summary_eq : r.summary = r'.summary
  yearSummary_eq : r.yearSummary = r'.yearSummary
  allTimeSummary_eq : r.allTimeSummary = r'.allTimeSummary

theorem Source.query_query (s : Source) (f : Filter) : (s.query f).2.query f = s.query f := by
  have kept : (s.query f).2.kept? f = some (s.query f).1 := by
    unfold query
    split
    · assumption
    · exact List.lookup_cons_self
  rw [query, kept]

namespace Session

variable {s : Session} {q q' : Query}

theorem report_withTrend (s : Session) (plan : Plan) (length : Option Nat)
    (entries : List Entry) : s.report { plan with trendLength := length } entries =
      (s.report plan entries).map (Report.withTrend length) := by
  unfold report
  cases applyPredicates s.registry s.settings plan.residual entries <;> rfl

/-- A query is answered as the other one is, with a trend of its own length. -/
theorem execute_withTrend (same : q.predicates = q'.predicates)
    (scope : q.isTimed s.registry = true ∨ q.periodOrDefault = q'.periodOrDefault) :
    s.execute q' =
      ((s.execute q).1.map (Report.withTrend q'.trendLength?), (s.execute q).2) := by
  unfold execute
  rw [Plan.ofQuery_presented same scope]
  cases Plan.ofQuery s.registry q s.today with
  | error failure => rfl
  | ok plan =>
    simp only [Except.map]
    cases s.fetchForQuery plan.filter with
    | error failure => rfl
    | ok answer => exact congrArg (·, answer.2) (report_withTrend ..)

theorem trend_execute {r : Report} (h : (s.execute q).1 = .ok r) :
    r.withTrend q.trendLength? = r := by
  have own := congrArg Prod.fst (execute_withTrend (s := s) (q := q) rfl (.inr rfl))
  rw [h] at own
  exact (Except.ok.inj own).symm

/-- A query that is asked once more is answered in the same way, from what the source has kept. -/
theorem execute_execute (s : Session) (q : Query) : (s.execute q).2.execute q = s.execute q := by
  cases hp : Plan.ofQuery s.registry q s.today with
  | error failure => simp only [execute, hp]
  | ok plan =>
    cases ho : s.outage with
    | some message => simp only [execute, hp, fetchForQuery, fetch, ho]
    | none =>
      simp only [execute, hp, fetchForQuery, fetch, ho, Source.query_query]

theorem registry_execute (s : Session) (q : Query) : (s.execute q).2.registry = s.registry := by
  unfold execute
  split
  · rfl
  · rename_i plan _
    unfold fetchForQuery fetch
    cases s.outage <;> rfl

/--
Two queries with the same predicates, and the same period unless a predicate restricts time, fail
alike or have reports with the same figures; their trends are the same if they are as long. It does
not matter whether one is asked before the other.
-/
theorem execute_presented (s : Session) (same : q.predicates = q'.predicates)
    (scope : q.isTimed s.registry = true ∨ q.periodOrDefault = q'.periodOrDefault) :
    (s.execute q).2.execute q' = s.execute q' ∧
      (∀ failure, (s.execute q).1 = .error failure ↔ (s.execute q').1 = .error failure) ∧
      ∀ r r', (s.execute q).1 = .ok r → (s.execute q').1 = .ok r' →
        r.SameFigures r' ∧ (q.trendLength? = q'.trendLength? → r.trend = r'.trend) := by
  have other := execute_withTrend same scope
  refine ⟨?_, fun failure => ?_, fun r r' hr hr' => ?_⟩
  · have later := execute_withTrend (s := (s.execute q).2) same (by rwa [registry_execute])
    rw [later, execute_execute, other]
  · rw [other]
    cases (s.execute q).1 with
    | error failure' => rfl
    | ok r => exact ⟨nofun, nofun⟩
  · rw [other, hr] at hr'
    cases hr'
    refine ⟨⟨rfl, rfl, rfl, rfl, rfl⟩, fun length => ?_⟩
    rw [← length, trend_execute hr]

/-- With a year in it, a table of the last months and a small chart of all time say the same. -/
theorem execute_presented_year :
    let s : Session :=
      { source := .ofEntries [Entry.blank Plan.lateAugust (some "acme")]
        settings := .default
        registry := .standard
        today := Plan.lateAugust }
    let year : Option (List Predicate) := some [⟨"year", .compare .eq (.int 2024)⟩]
    let table : Query := { conditions := year, view := some .table, period := some .last6Months }
    let chart : Query :=
      { conditions := year, view := some .chart, chart := some .trend, period := some .allTime,
        size := some .compact }
    ∃ r r', (s.execute table).1 = .ok r ∧ (s.execute chart).1 = .ok r' ∧
      r.SameFigures r' ∧ r.trend = r'.trend := by
  intro s year table chart
  have first : (s.execute table).1.toOption.isSome = true := by decide +kernel
  have second : (s.execute chart).1.toOption.isSome = true := by decide +kernel
  obtain ⟨r, hr⟩ := Option.isSome_iff_exists.1 first
  obtain ⟨r', hr'⟩ := Option.isSome_iff_exists.1 second
  have hr := ok_of_toOption hr
  have hr' := ok_of_toOption hr'
  have same : table.predicates = chart.predicates := rfl
  have timed : table.isTimed s.registry = true := by decide +kernel
  obtain ⟨figures, trend⟩ := (s.execute_presented same (.inl timed)).2.2 r r' hr hr'
  exact ⟨r, r', hr, hr', figures, trend rfl⟩

end Session

end Worklog
