import Worklog.Proofs.Plan.Window
import Worklog.Proofs.Source.History
import Worklog.Session

/-!
# Executing plans

Where the matchers of a query judge every entry, executing it asks the source for the plan's filter
and reports what the residual predicates keep of the answer (`Session.execute_eq`); of a source
that has not been asked before, that is what the plan selects (`Session.execute_ofEntries`). A
query reaches its source only by asking it one filter (`Session.source_run`), so the histories of
sources also tell what sessions are answered with.
-/

namespace Worklog

namespace Session

/-! ## What is reported -/

section Execute

variable {s : Session} {q : Query} {plan : Plan}

/-- A session whose source works and whose matchers judge every entry reports what they keep. -/
theorem execute_eq (up : s.outage = none) (hplan : Plan.ofQuery s.registry q s.today = .ok plan)
    (judged : ∀ p ∈ plan.residual, JudgesAll (p.matcher s.registry s.settings)) :
    s.execute q =
      (.ok (Report.ofEntries s.settings plan.trendLength plan.today
          ((s.source.query plan.filter).1.filter fun e =>
            plan.residual.all fun p => p.admits s.registry s.settings e)),
        { s with source := (s.source.query plan.filter).2 }) := by
  have answer : s.fetchForQuery plan.filter =
      .ok ((s.source.query plan.filter).1,
        { s with source := (s.source.query plan.filter).2 }) := by
    simp only [fetchForQuery, fetch, up]
  simp only [execute, hplan, answer, report, applyPredicates_eq judged]
  rfl

/-- The first answer of a source is what the filter admits. -/
theorem query_ofEntries (entries : List Entry) (f : Filter) :
    ((Source.ofEntries entries).query f).1 = entries.filter f.admits :=
  rfl

/-- A session that asks for the first time reports what the plan selects. -/
theorem execute_ofEntries {entries : List Entry} (up : s.outage = none)
    (fresh : s.source = .ofEntries entries)
    (hplan : Plan.ofQuery s.registry q s.today = .ok plan)
    (judged : ∀ p ∈ plan.residual, JudgesAll (p.matcher s.registry s.settings)) :
    (s.execute q).1 = .ok (Report.ofEntries s.settings plan.trendLength plan.today
      (entries.filter fun e => plan.selects s.registry s.settings e)) := by
  rw [execute_eq up hplan judged, fresh, query_ofEntries, List.filter_filter]
  simp only [Plan.selects, Bool.and_comm]

end Execute

/-- Whatever the session is, a report is of some of the entries with which its source answers. -/
theorem exists_of_execute {s : Session} {q : Query} {report : Report}
    (h : (s.execute q).1 = .ok report) :
    ∃ plan kept, Plan.ofQuery s.registry q s.today = .ok plan ∧
      kept.Sublist (s.source.query plan.filter).1 ∧
      report = Report.ofEntries s.settings plan.trendLength plan.today kept := by
  simp only [execute] at h
  cases hplan : Plan.ofQuery s.registry q s.today with
  | error failure =>
    rw [hplan] at h
    cases h
  | ok plan =>
    simp only [hplan, fetchForQuery, fetch] at h
    cases up : s.outage with
    | some message =>
      simp only [up] at h
      cases h
    | none =>
      simp only [up] at h
      obtain ⟨kept, hkept, h⟩ := exists_of_bind_ok h
      cases h
      exact ⟨plan, kept, rfl, sublist_of_applyPredicates hkept, rfl⟩

theorem exists_of_run {s : Session} {text : String} {q : Query} {report : Report}
    (hq : Query.compile s.registry text = .ok q) (h : (s.run text).1 = .ok report) :
    ∃ plan kept, Plan.ofQuery s.registry q s.today = .ok plan ∧
      kept.Sublist (s.source.query plan.filter).1 ∧
      report = Report.ofEntries s.settings plan.trendLength plan.today kept := by
  simp only [run, hq] at h
  exact exists_of_execute h

/-! ## What happens to the source -/

theorem source_fetchForQuery {s s' : Session} {f : Filter} {answer : List Entry}
    (h : s.fetchForQuery f = .ok (answer, s')) : s'.source = s.source.after (.query f) := by
  unfold fetchForQuery fetch at h
  cases ho : s.outage with
  | some message =>
    simp only [ho] at h
    cases h
  | none =>
    simp only [ho] at h
    cases h
    rfl

theorem source_execute (s : Session) (q : Query) :
    ∃ asked : List Filter, asked.length ≤ 1 ∧
      (s.execute q).2.source = s.source.run (asked.map .query) := by
  unfold execute
  split
  · exact ⟨[], by simp, rfl⟩
  · rename_i plan _
    split
    · exact ⟨[], by simp, rfl⟩
    · rename_i answer s' h
      exact ⟨[plan.filter], by simp, source_fetchForQuery h⟩

/-- A text that is run asks the source at most one filter and changes nothing else in it. -/
theorem source_run (s : Session) (text : String) :
    ∃ asked : List Filter, asked.length ≤ 1 ∧
      (s.run text).2.source = s.source.run (asked.map .query) := by
  unfold run
  split
  · exact ⟨[], by simp, rfl⟩
  · exact source_execute s _

end Session

end Worklog
