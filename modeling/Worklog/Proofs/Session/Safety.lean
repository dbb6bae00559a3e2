import Worklog.Proofs.Rollup.Stepwise
import Worklog.Proofs.Session.Selection

/-!
# Compiled queries are answered

With the language's own fields, no stage of answering a query that compiles fails: its plan is made,
the residual predicates judge whatever the source answers, and the report can be computed with every
check on the way (`Session.run_stepwise`). Nothing is asked of the entries: hours may be infinite,
and rates negative or no numbers at all.
-/

namespace Worklog

namespace Session

/-- A text that compiles is answered, and every step on the way to its report is defined. -/
theorem run_stepwise (s : Session) (up : s.outage = none) (hr : s.registry.IsDefault)
    {text : String} {q : Query} (hq : Query.compile s.registry text = .ok q)
    (ht : 2 ≤ s.today.year) :
    ∃ plan kept report, Plan.ofQuery s.registry q s.today = .ok plan ∧
      (∀ p ∈ plan.residual, JudgesAll (p.matcher s.registry s.settings)) ∧
      (∀ e : Entry, Stepwise.quotient e.hours s.settings.hoursPerWorkday =
        .ok (dailyUtilization e.hours s.settings.hoursPerWorkday)) ∧
      applyPredicates s.registry s.settings plan.residual (s.source.query plan.filter).1 =
        .ok kept ∧
      Stepwise.report s.settings plan.trendLength plan.today kept = .ok report ∧
      (s.run text).1 = .ok report := by
  obtain ⟨plan, hplan, judged, -⟩ := hr.exists_plan hq ht s.settings
  have workday := s.settings.hoursPerWorkday_pos
  refine ⟨plan, _, _, hplan, judged, fun e => ?_, applyPredicates_eq judged _,
    Stepwise.report_eq .., ?_⟩
  · rw [Stepwise.quotient_of_pos e.hours workday, dailyUtilization, ratio, if_pos workday]
  · simp only [run, hq, execute_eq up hplan judged]

/-- An entry of endless hours at a rate that is no number does no harm. -/
theorem run_stepwise_endless :
    let endless : Entry :=
      { Entry.blank Plan.lateAugust (some "acme") with
        hours := 1.0 / 0.0
        rate := some (0.0 / 0.0)
        hours_nonneg := by decide +kernel }
    let s : Session :=
      { source := .ofEntries [endless]
        settings := .default
        registry := .standard
        today := Plan.lateAugust }
    let text := "WHERE utilization BETWEEN 0.5 AND 1 AND month = 8 PERIOD last-6-months"
    ∃ (plan : Plan) (kept : List Entry) (report : Report),
      Stepwise.report s.settings plan.trendLength plan.today kept = .ok report ∧
      (s.run text).1 = .ok report := by
  intro endless s text
  let q : Query :=
    { conditions := some
        [⟨"utilization", .range (.float 0.5) (.int 1)⟩, ⟨"month", .compare .eq (.int 8)⟩]
      period := some .last6Months }
  have hq : Query.compile s.registry text = .ok q := ok_of_toOption (by decide +kernel)
  have ht : 2 ≤ s.today.year := by decide
  obtain ⟨plan, kept, report, -, -, -, -, steps, run⟩ := s.run_stepwise rfl (.inl rfl) hq ht
  exact ⟨plan, kept, report, steps, run⟩

end Session

end Worklog
