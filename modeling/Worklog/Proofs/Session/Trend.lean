import Worklog.Proofs.Rollup.Trend
import Worklog.Proofs.Session.Selection

/-!
# The trend of a report

The trend of a report shows the last of its months. How many it shows is settled by the period, if
that is one of the last months, and otherwise by the size (`Query.shownMonths?`). This holds of
whatever a session reports, and apart from reports a trend does not depend on the order in which
its months arrive (`trends_show_last_months`).
-/

namespace Worklog

/-- How many months the trend of a query shows: those of a rolling period, or six if compact. -/
def Query.shownMonths? (q : Query) : Option Int :=
  match q.periodOrDefault, q.sizeOrDefault with
  | .last6Months, _ => some 6
  | .last12Months, _ => some 12
  | .currentYear, .compact | .allTime, .compact => some 6
  | .currentYear, _ | .allTime, _ => none

theorem Query.map_trendLength? (q : Query) : q.trendLength?.map Int.ofNat = q.shownMonths? := by
  unfold trendLength? shownMonths?
  cases q.periodOrDefault <;> cases q.sizeOrDefault <;> rfl

theorem Report.showsLast_ofEntries (settings : Settings) (length : Option Nat) (today : Date)
    (entries : List Entry) :
    let report := Report.ofEntries settings length today entries
    report.trend.ShowsLast (length.map Int.ofNat) report.months :=
  Trend.showsLast_of_ascending _ (Month.pairwise_isBefore_ofEntries ..)

/-- Whatever a session reports, the trend shows the last of its months, in order of time. -/
theorem Session.showsLast_of_execute {s : Session} {q : Query} {report : Report}
    (answered : (s.execute q).1 = .ok report) :
    report.months.Pairwise (fun a b => a.isBefore b = true) ∧
      report.trend.ShowsLast q.shownMonths? report.months := by
  obtain ⟨plan, kept, hplan, -, rfl⟩ := exists_of_execute answered
  obtain ⟨length, -⟩ := Plan.trendLength_and_today_ofQuery hplan
  rw [← q.map_trendLength?, ← length]
  exact ⟨Month.pairwise_isBefore_ofEntries .., Report.showsLast_ofEntries ..⟩

/--
A trend is the same for all orders of its months and shows the last of them in order of time; the
trend of a report shows as many of the report's months as the period and the size say.
-/
theorem trends_show_last_months :
    (∀ (limit : Option Int) (months : List Month), (months.map Month.key).Nodup →
      (∀ arranged, arranged.Perm months →
        Trend.ofMonths limit arranged = Trend.ofMonths limit months) ∧
      ∃ ordered, ordered.Perm months ∧ ordered.Pairwise (fun a b => a.isBefore b = true) ∧
        (Trend.ofMonths limit months).ShowsLast limit ordered) ∧
    ∀ (s : Session) (q : Query) (report : Report), (s.execute q).1 = .ok report →
      report.months.Pairwise (fun a b => a.isBefore b = true) ∧
        report.trend.ShowsLast q.shownMonths? report.months := by
  refine ⟨fun limit months distinct => ⟨fun arranged => ?_, ?_⟩, fun s q report => ?_⟩
  · exact Trend.ofMonths_eq_of_perm limit distinct
  · exact ⟨_, Sorting.sort_perm .., Month.pairwise_sort distinct,
      Trend.showsLast_ofMonths limit months⟩
  · exact Session.showsLast_of_execute

/-- Two months that arrive in the wrong order, and a compact report about seven months. -/
theorem trends_show_last_months_compact :
    let day (year month : Nat) := (Date.ofParts year month 1).toOption.map (Entry.blank · none)
    let months := (Month.ofEntries .default ((day 2023 12).toList ++ (day 2024 1).toList)).reverse
    let s : Session :=
      { source := .ofEntries ((List.range 7).filterMap fun i => day 2023 (i + 4))
        settings := .default
        registry := .standard
        today := Plan.lateAugust }
    (months.map Month.key).Nodup ∧
    Trend.ofMonths (some (-1)) months.reverse = Trend.ofMonths (some (-1)) months ∧
    ∃ report, (s.run "PERIOD all-time SIZE compact").1 = .ok report ∧ report.months.length = 7 ∧
      report.trend.ShowsLast (some 6) report.months := by
  intro day months s
  let q : Query := { period := some .allTime, size := some .compact }
  have hq : Query.compile s.registry "PERIOD all-time SIZE compact" = .ok q :=
    ok_of_toOption (by decide +kernel)
  have answered := Registry.IsDefault.runQuery_eq (.inl rfl) hq (by decide : 2 ≤ s.today.year)
    s.settings ((List.range 7).filterMap fun i => day 2023 (i + 4))
  have executed : (s.execute q).1 = (s.run "PERIOD all-time SIZE compact").1 := by
    rw [Session.run, hq]
  have distinct : (months.map Month.key).Nodup := by decide +kernel
  obtain ⟨lists, runs⟩ := trends_show_last_months
  refine ⟨distinct, (lists _ months distinct).1 _ months.reverse_perm, _, answered,
    by decide +kernel, ?_⟩
  exact (runs s q _ (executed.trans answered)).2

end Worklog
