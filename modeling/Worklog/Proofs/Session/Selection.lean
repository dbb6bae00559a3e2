import Worklog.Proofs.Entry.Order
import Worklog.Proofs.Query.Standard
import Worklog.Proofs.Session.Execution

/-!
# What a query reports

With the language's own fields, pushing down, judging in memory and the period together are plain
evaluation: a query reports the entries that satisfy all its predicates and, unless one of them
restricts time, lie in its period (`Query.selects`, `runQuery_selects`).
-/

namespace Worklog

namespace Query

/-- Whether a predicate is about years, months or days. -/
def restrictsTime (q : Query) : Bool :=
  q.predicates.any fun p => p.field ∈ ["year", "month", "date"]

/-- Whether an entry satisfies every predicate and lies in the period if that is what counts. -/
def selects (q : Query) (registry : Registry) (settings : Settings) (today : Date) (e : Entry) :
    Bool :=
  (q.predicates.all fun p => p.admits registry settings e) &&
    (q.restrictsTime || q.periodOrDefault.covers today e.date)

end Query

section Default

variable {registry : Registry} {settings : Settings} {today : Date} {text : String} {q : Query}

theorem Registry.IsDefault.isTimed_eq (hr : registry.IsDefault)
    (hq : Query.compile registry text = .ok q) : q.isTimed registry = q.restrictsTime := by
  rw [Bool.eq_iff_iff, Query.isTimed_iff, Query.restrictsTime, List.any_eq_true]
  refine exists_congr fun p => and_congr_right fun hp => ?_
  rw [hr.temporal_iff hq hp, decide_eq_true_iff]

/-- A plan of a query with the language's own fields selects what the query does. -/
theorem Registry.IsDefault.exists_plan (hr : registry.IsDefault)
    (hq : Query.compile registry text = .ok q) (ht : 2 ≤ today.year) (settings : Settings) :
    ∃ plan, Plan.ofQuery registry q today = .ok plan ∧
      (∀ p ∈ plan.residual, JudgesAll (p.matcher registry settings)) ∧
      ∀ e, plan.selects registry settings e = q.selects registry settings today e := by
  obtain ⟨plan, hplan, covers⟩ := Plan.exists_ofQuery hq ht
  obtain ⟨s, f, hf, -, -, hres⟩ := Plan.exists_of_ofQuery hq hplan settings
  -- All residual predicates are predicates of the query, whose matchers never fail.
  refine ⟨plan, hplan, fun p hp => ?_, fun e => ?_⟩
  · exact hr.judgesAll hq settings p (hf.residual_sub (hres ▸ hp))
  · have timed := fun h mem (_ : h.pushed = true) => hr.temporal_of_rule (h := h) mem
    rw [Bool.eq_iff_iff, Plan.selects_iff hq hplan timed e, covers, hr.isTimed_eq hq,
      Query.selects, Bool.and_eq_true, List.all_eq_true]

/-- A text that compiles is answered with the report of the entries that its query selects. -/
theorem Registry.IsDefault.runQuery_eq (hr : registry.IsDefault)
    (hq : Query.compile registry text = .ok q) (ht : 2 ≤ today.year) (settings : Settings)
    (entries : List Entry) : runQuery registry settings today entries text =
      .ok (Report.ofEntries settings q.trendLength? today
        (entries.filter (q.selects registry settings today))) := by
  obtain ⟨plan, hplan, judged, selected⟩ := hr.exists_plan hq ht settings
  obtain ⟨length, day⟩ := Plan.trendLength_and_today_ofQuery hplan
  let s : Session := { source := .ofEntries entries, settings, registry, today }
  have executed := s.execute_ofEntries rfl rfl hplan judged
  change (s.run text).1 = _
  simp only [Session.run, s, hq]
  rw [executed, funext selected, length, day]

/--
A text that compiles is answered with exactly the entries that its query selects, each as often as
it occurs, in the order of their keys if all of their rates are numbers; and none of the matchers
that this refers to ever fails.
-/
theorem runQuery_selects (hr : registry.IsDefault) (hq : Query.compile registry text = .ok q)
    (ht : 2 ≤ today.year) (settings : Settings) (entries : List Entry) :
    (∀ p ∈ q.predicates, JudgesAll (p.matcher registry settings)) ∧
      ∃ report, runQuery registry settings today entries text = .ok report ∧
        report.entries.Perm (entries.filter (q.selects registry settings today)) ∧
        ((∀ e ∈ report.entries, e.HasRate) →
          report.entries.Pairwise fun a b => a.sortKey ≤ b.sortKey) := by
  obtain ⟨plan, hplan, judged, selected⟩ := hr.exists_plan hq ht settings
  refine ⟨hr.judgesAll hq settings, ?_⟩
  let kept := entries.filter (q.selects registry settings today)
  have perm : (Sorting.sort Entry.isBefore kept).Perm kept := Sorting.sort_perm ..
  refine ⟨Report.ofEntries settings plan.trendLength plan.today kept, ?_, perm, fun rated => ?_⟩
  · let s : Session := { source := .ofEntries entries, settings, registry, today }
    change (s.run text).1 = _
    have executed := s.execute_ofEntries rfl rfl hplan judged
    simp only [Session.run, s, hq]
    rw [executed, funext selected]
  · exact Entry.pairwise_sort fun e he => rated e (perm.mem_iff.2 he)

end Default

/-- Of two entries on a project in a rolling period, the one of enough hours is reported. -/
theorem runQuery_recent :
    let registry := (Registry.standard.edit (.addEntryFields false)).1
    let text := "WHERE project = \"Acme\" AND hours >= 0.5 PERIOD last-6-months"
    let idle := Entry.blank Plan.lateAugust (some "acme")
    let busy : Entry := { idle with hours := 4.0, hours_nonneg := by decide +kernel }
    ∃ report, runQuery registry .default Plan.lateAugust [idle, busy] text = .ok report ∧
      report.entries = [busy] := by
  intro registry text idle busy
  let q : Query :=
    { conditions := some
        [⟨"project", .compare .eq (.text "Acme")⟩, ⟨"hours", .compare .ge (.float 0.5)⟩]
      period := some .last6Months }
  have hq : Query.compile registry text = .ok q := ok_of_toOption (by decide +kernel)
  have ht : 2 ≤ Plan.lateAugust.year := by decide
  have selected : [idle, busy].filter (q.selects registry .default Plan.lateAugust) = [busy] := by
    decide +kernel
  obtain ⟨-, report, hreport, perm, -⟩ :=
    runQuery_selects (.inr ⟨false, rfl⟩) hq ht .default [idle, busy]
  rw [selected] at perm
  exact ⟨report, hreport, List.perm_singleton.1 perm⟩

end Worklog
