import Worklog.Proofs.Entry.Rearrangement
import Worklog.Proofs.Rollup.Ties
import Worklog.Proofs.Session.Selection

/-!
# Entries in another order

However the entries of a source are arranged, a query has the same failure or the same rollups
about them, and reports the same entries in one order of keys. The reports are the same in all if
and only if no two of the reported entries differ and have one key (`runQuery_perm`): entries of
one key are reported in the order in which the source has them, as when one has no project and the
other an empty one (`exists_rearranged`).
-/

namespace Worklog

/-- Whether reports differ at most in the order of entries of one key. -/
structure Report.SameUpToTies (r r' : Report) : Prop where
  entries_perm : r.entries.Perm r'.entries
  keys_eq : r.entries.map Entry.sortKey = r'.entries.map Entry.sortKey
  months_eq : r.months = r'.months
  trend_eq : r.trend = r'.trend
  summary_eq : r.summary = r'.summary
  yearSummary_eq : r.yearSummary = r'.yearSummary
  allTimeSummary_eq : r.allTimeSummary = r'.allTimeSummary

theorem Report.sameUpToTies_ofEntries (settings : Settings) (trendLength : Option Nat)
    (today : Date) {as bs : List Entry} (rated : ∀ e ∈ as, e.HasRate) (h : as.Perm bs) :
    (ofEntries settings trendLength today as).SameUpToTies
      (ofEntries settings trendLength today bs) := by
  have keys := Entry.map_sortKey_sort_eq rated h
  have tied : TiedAll (Sorting.sort Entry.isBefore as) (Sorting.sort Entry.isBefore bs) :=
    tiedAll_of_map_sortKey_eq (Entry.hasRate_sort rated)
      (Entry.hasRate_sort (Entry.hasRate_of_perm h rated)) keys
  have months := Month.ofEntries_congr tied settings
  have summary := Summary.ofEntries_congr tied settings
  exact {
    entries_perm := Entry.sort_perm_sort h
    keys_eq := keys
    months_eq := months
    trend_eq := congrArg (Trend.ofMonths _) months
    summary_eq := summary
    yearSummary_eq := Summary.ofEntries_congr (tied.filter fun d => d.year == today.year) settings
    allTimeSummary_eq := summary }

theorem Report.ofEntries_eq_iff {settings : Settings} {trendLength : Option Nat} {today : Date}
    {as bs : List Entry} :
    ofEntries settings trendLength today as = ofEntries settings trendLength today bs ↔
      Sorting.sort Entry.isBefore as = Sorting.sort Entry.isBefore bs := by
  constructor
  · exact congrArg Report.entries
  · intro h
    simp only [ofEntries, h]

section Default

variable {registry : Registry} (hr : registry.IsDefault)
include hr

/-- A text has one failure, or one report of the entries that it chooses. -/
theorem Registry.IsDefault.exists_choice (settings : Settings) (today : Date) (text : String) :
    (∃ failure, ∀ entries, runQuery registry settings today entries text = .error failure) ∨
      ∃ trendLength today' choice, ∀ entries, runQuery registry settings today entries text =
        .ok (Report.ofEntries settings trendLength today' (entries.filter choice)) := by
  have run_eq (entries : List Entry) : runQuery registry settings today entries text =
      (Session.run { source := .ofEntries entries, settings, registry, today } text).1 := rfl
  cases hq : Query.compile registry text with
  | error failure =>
    refine .inl ⟨failure, fun entries => ?_⟩
    rw [run_eq, Session.run, hq]
  | ok q =>
    cases hplan : Plan.ofQuery registry q today with
    | error failure =>
      refine .inl ⟨failure, fun entries => ?_⟩
      simp only [run_eq, Session.run, hq, Session.execute, hplan]
    | ok plan =>
      obtain ⟨_, _, hf, -, -, hres⟩ := Plan.exists_of_ofQuery hq hplan settings
      have judged : ∀ p ∈ plan.residual, JudgesAll (p.matcher registry settings) := fun p hp =>
        hr.judgesAll hq settings p (hf.residual_sub (hres ▸ hp))
      refine .inr ⟨plan.trendLength, plan.today, plan.selects registry settings,
        fun entries => ?_⟩
      simp only [run_eq, Session.run, hq]
      exact Session.execute_ofEntries rfl rfl hplan judged

/--
A text is answered about the entries of a source in any order with the same failure or with
reports that differ at most in the order of entries of one key; and with the same report in every
order if and only if reported entries of one key are the same.
-/
theorem runQuery_perm (settings : Settings) (today : Date) (text : String) {xs : List Entry}
    (rated : ∀ e ∈ xs, e.HasRate) :
    (∀ ys, xs.Perm ys →
      (∃ failure, runQuery registry settings today xs text = .error failure ∧
        runQuery registry settings today ys text = .error failure) ∨
      ∃ r r', runQuery registry settings today xs text = .ok r ∧
        runQuery registry settings today ys text = .ok r' ∧ r.SameUpToTies r') ∧
    ((∀ ys, xs.Perm ys →
        runQuery registry settings today ys text = runQuery registry settings today xs text) ↔
      ∀ r, runQuery registry settings today xs text = .ok r →
        ∀ a ∈ r.entries, ∀ b ∈ r.entries, a.sortKey = b.sortKey → a = b) := by
  rcases hr.exists_choice settings today text with ⟨failure, hrun⟩ | ⟨n, today', choice, hrun⟩
  · simp [hrun]
  have kept : ∀ e ∈ xs.filter choice, e.HasRate := fun e he => rated e (List.mem_of_mem_filter he)
  have reported (e : Entry) : e ∈ (Report.ofEntries settings n today' (xs.filter choice)).entries ↔
      e ∈ xs.filter choice := (Sorting.sort_perm Entry.isBefore (xs.filter choice)).mem_iff
  simp only [hrun]
  refine ⟨fun ys h => .inr ⟨_, _, rfl, rfl, ?_⟩, ?_⟩
  · exact Report.sameUpToTies_ofEntries settings n today' kept (h.filter choice)
  · simp only [Except.ok.injEq, Report.ofEntries_eq_iff, Entry.sort_filter_eq_iff rated,
      forall_eq', reported]

end Default

/-- Work at no rate and work at a rate of zero are rolled up alike, but not reported in one way. -/
theorem runQuery_perm_unpaid :
    let unpaid : Entry :=
      { Entry.blank Plan.lateAugust (some "acme") with
        hours := 2.0
        hours_nonneg := by decide +kernel }
    let free : Entry := { unpaid with rate := some 0.0 }
    let answer (entries : List Entry) :=
      runQuery .standard .default Plan.lateAugust entries "VIEW summary"
    (∃ r r', answer [unpaid, free] = .ok r ∧ answer [free, unpaid] = .ok r' ∧ r.SameUpToTies r') ∧
      ¬ ∀ ys, [unpaid, free].Perm ys → answer ys = answer [unpaid, free] := by
  intro unpaid free answer
  have rated : ∀ e ∈ [unpaid, free], e.HasRate := by
    intro e he
    rcases List.mem_pair.1 he with rfl | rfl
    · nofun
    · rintro r ⟨⟩
      decide +kernel
  obtain ⟨agree, same_iff⟩ := runQuery_perm (.inl rfl) .default Plan.lateAugust "VIEW summary" rated
  have entries_eq : (answer [unpaid, free]).toOption.map Report.entries = some [unpaid, free] := by
    decide +kernel
  obtain ⟨r, hr, hentries⟩ := Option.map_eq_some_iff.1 entries_eq
  have hr := ok_of_toOption hr
  constructor
  · rcases agree [free, unpaid] (.swap ..) with ⟨failure, hfailure, -⟩ | reports
    · exact absurd (hfailure.symm.trans hr) nofun
    · exact reports
  · intro same
    have hunpaid : unpaid ∈ r.entries := by simp [hentries]
    have hfree : free ∈ r.entries := by simp [hentries]
    have one_key : unpaid.sortKey = free.sortKey := by decide +kernel
    exact absurd (same_iff.1 same r hr unpaid hunpaid free hfree one_key) (by decide +kernel)

/-- Two entries, one without a project and one with an empty one, are reported as they come. -/
theorem exists_rearranged :
    let unnamed := Entry.blank Plan.lateAugust none
    let empty := Entry.blank Plan.lateAugust (some "")
    let answer (entries : List Entry) :=
      runQuery .standard .default Plan.lateAugust entries "VIEW summary"
    (∀ e ∈ [unnamed, empty], e.HasRate) ∧ [unnamed, empty].Perm [empty, unnamed] ∧
      ∃ r r', answer [unnamed, empty] = .ok r ∧ answer [empty, unnamed] = .ok r' ∧
        r.entries = [unnamed, empty] ∧ r'.entries = [empty, unnamed] ∧ r ≠ r' := by
  intro unnamed empty answer
  have first : (answer [unnamed, empty]).toOption.map Report.entries = some [unnamed, empty] := by
    decide +kernel
  have second : (answer [empty, unnamed]).toOption.map Report.entries = some [empty, unnamed] := by
    decide +kernel
  have rated : ∀ e ∈ [unnamed, empty], e.HasRate := by
    intro e he
    rcases List.mem_pair.1 he with rfl | rfl <;> nofun
  obtain ⟨r, hr, entries_eq⟩ := Option.map_eq_some_iff.1 first
  obtain ⟨r', hr', entries_eq'⟩ := Option.map_eq_some_iff.1 second
  refine ⟨rated, .swap .., r, r', ok_of_toOption hr, ok_of_toOption hr', entries_eq, entries_eq',
    ?_⟩
  rintro rfl
  exact absurd (entries_eq.symm.trans entries_eq') (by decide +kernel)

end Worklog
