import Worklog.Proofs.Entry.Rearrangement
import Worklog.Proofs.Rollup.Ties
import Worklog.Proofs.Session.Selection

/-!
# Which entries the summaries of a report are about

A query selects the entries that satisfy its predicates and that its period reaches, and all three
summaries of its report are about these: that of all time is the one of the request once more, and
that of the present year leaves out other years. Entries that the period does not reach are missing
from all of them (`exists_lost_rollups`).

The entries that are summed up are all that satisfy the predicates if and only if the period
reaches every one of those, in the present year or at all. Then the summaries are the same for
every such period (`runQuery_rollups`).
-/

namespace Worklog

/-! ## Entries that a period does not reach -/

namespace Query

/-- Whether an entry satisfies every predicate. -/
def accepts (q : Query) (registry : Registry) (settings : Settings) (e : Entry) : Bool :=
  q.predicates.all fun p => p.admits registry settings e

/-- Whether an entry lies in the period, if that is what counts. -/
def reaches (q : Query) (today : Date) (e : Entry) : Bool :=
  q.restrictsTime || q.periodOrDefault.covers today e.date

theorem selects_eq (q : Query) (registry : Registry) (settings : Settings) (today : Date)
    (e : Entry) : q.selects registry settings today e =
      (q.accepts registry settings e && q.reaches today e) :=
  rfl

theorem accepts_congr {q q' : Query} (same : q.predicates = q'.predicates) (registry : Registry)
    (settings : Settings) : q.accepts registry settings = q'.accepts registry settings := by
  funext e
  rw [accepts, accepts, same]

end Query

/-! ## Summaries of chosen days -/

namespace Summary

/-- The summary of those of the entries that are of the chosen days. -/
def ofDays (settings : Settings) (chosen : Date → Bool) (entries : List Entry) : Summary :=
  ofEntries settings ((Sorting.sort Entry.isBefore entries).filter fun e => chosen e.date)

theorem ofDays_all (settings : Settings) (entries : List Entry) :
    ofDays settings (fun _ => true) entries =
      ofEntries settings (Sorting.sort Entry.isBefore entries) := by
  rw [ofDays, List.filter_true]

theorem ofDays_congr (settings : Settings) {chosen : Date → Bool} {as bs : List Entry}
    (ha : ∀ e ∈ as, e.HasRate) (hb : ∀ e ∈ bs, e.HasRate)
    (h : (as.filter fun e => chosen e.date).Perm (bs.filter fun e => chosen e.date)) :
    ofDays settings chosen as = ofDays settings chosen bs := by
  have perm : ((Sorting.sort Entry.isBefore as).filter fun e => chosen e.date).Perm
      ((Sorting.sort Entry.isBefore bs).filter fun e => chosen e.date) :=
    ((Sorting.sort_perm ..).filter _).trans (h.trans ((Sorting.sort_perm ..).filter _).symm)
  have rated {es : List Entry} (he : ∀ e ∈ es, e.HasRate) :
      ∀ e ∈ (Sorting.sort Entry.isBefore es).filter fun e => chosen e.date, e.HasRate :=
    fun e hmem => Entry.hasRate_sort he e (List.mem_of_mem_filter hmem)
  -- Both are in the order of the keys, so they can only differ in entries of one key.
  have keys := (perm.map Entry.sortKey).eq_of_pairwise'
    (List.pairwise_map.2 ((Entry.pairwise_sort ha).filter _))
    (List.pairwise_map.2 ((Entry.pairwise_sort hb).filter _))
  exact ofEntries_congr (tiedAll_of_map_sortKey_eq (rated ha) (rated hb) keys) settings

/-- What a summary of the chosen days is about, when a query selects the entries for it. -/
structure RollsUp (s : Summary) (q : Query) (registry : Registry) (settings : Settings)
    (today : Date) (entries : List Entry) (chosen : Date → Bool) : Prop where
  eq_selected : s = ofDays settings chosen (entries.filter (q.selects registry settings today))
  selected_iff : ((entries.filter (q.selects registry settings today)).filter
      fun e => chosen e.date) =
        (entries.filter (q.accepts registry settings)).filter (fun e => chosen e.date) ↔
    ∀ e ∈ entries, q.accepts registry settings e = true → chosen e.date = true →
      q.reaches today e = true
  eq_accepted : (∀ e ∈ entries, q.accepts registry settings e = true → q.reaches today e = true) →
    s = ofDays settings chosen (entries.filter (q.accepts registry settings))
  eq_accepted_of_hasRate : (∀ e ∈ entries, e.HasRate) →
    (∀ e ∈ entries, q.accepts registry settings e = true → chosen e.date = true →
      q.reaches today e = true) →
    s = ofDays settings chosen (entries.filter (q.accepts registry settings))

section Selected

variable {q : Query} {registry : Registry} {settings : Settings} {today : Date}
  {entries : List Entry}

theorem filter_selects_iff (chosen : Date → Bool) :
    ((entries.filter (q.selects registry settings today)).filter fun e => chosen e.date) =
        (entries.filter (q.accepts registry settings)).filter (fun e => chosen e.date) ↔
      ∀ e ∈ entries, q.accepts registry settings e = true → chosen e.date = true →
        q.reaches today e = true := by
  constructor
  · intro same e he accepted day
    have mem : e ∈ (entries.filter (q.accepts registry settings)).filter fun e => chosen e.date :=
      List.mem_filter.2 ⟨List.mem_filter.2 ⟨he, accepted⟩, day⟩
    rw [← same, List.mem_filter, List.mem_filter, Query.selects_eq, Bool.and_eq_true] at mem
    exact mem.1.2.2
  · intro reached
    rw [List.filter_filter, List.filter_filter]
    refine List.filter_congr fun e he => ?_
    rw [Query.selects_eq, Bool.eq_iff_iff, Bool.and_eq_true, Bool.and_eq_true, Bool.and_eq_true]
    exact ⟨fun h => ⟨h.1, h.2.1⟩, fun h => ⟨h.1, h.2, reached e he h.2 h.1⟩⟩

theorem filter_selects (reached : ∀ e ∈ entries, q.accepts registry settings e = true →
    q.reaches today e = true) :
    entries.filter (q.selects registry settings today) =
      entries.filter (q.accepts registry settings) := by
  have all := (filter_selects_iff fun _ => true).2 fun e he accepted _ => reached e he accepted
  rwa [List.filter_true, List.filter_true] at all

theorem rollsUp_ofDays (chosen : Date → Bool) :
    (ofDays settings chosen (entries.filter (q.selects registry settings today))).RollsUp q
      registry settings today entries chosen where
  eq_selected := rfl
  selected_iff := filter_selects_iff chosen
  eq_accepted := by
    intro reached
    rw [filter_selects reached]
  eq_accepted_of_hasRate := by
    intro rated reached
    have kept {p : Entry → Bool} : ∀ e ∈ entries.filter p, e.HasRate :=
      fun e he => rated e (List.mem_of_mem_filter he)
    exact ofDays_congr settings kept kept (.of_eq ((filter_selects_iff chosen).2 reached))

end Selected

end Summary

/-! ## Reports -/

/-- What the summaries of the present year and of all time are about in the report of a query. -/
structure Report.RollsUp (r : Report) (q : Query) (registry : Registry) (settings : Settings)
    (today : Date) (entries : List Entry) : Prop where
  allTime : r.allTimeSummary.RollsUp q registry settings today entries fun _ => true
  year : r.yearSummary.RollsUp q registry settings today entries fun d => d.year == today.year

theorem Report.rollsUp_ofEntries (q : Query) (registry : Registry) (settings : Settings)
    (trendLength : Option Nat) (today : Date) (entries : List Entry) :
    (ofEntries settings trendLength today
      (entries.filter (q.selects registry settings today))).RollsUp q registry settings today
        entries where
  allTime := by
    have all : (ofEntries settings trendLength today
        (entries.filter (q.selects registry settings today))).allTimeSummary =
          .ofDays settings (fun _ => true)
            (entries.filter (q.selects registry settings today)) := (Summary.ofDays_all ..).symm
    rw [all]
    exact Summary.rollsUp_ofDays fun _ => true
  year := Summary.rollsUp_ofDays (q := q) fun d => d.year == today.year

section Default

variable {registry : Registry} {settings : Settings} {today : Date} {text text' : String}
  {q q' : Query}

/--
Two texts with the same predicates are answered with summaries of the entries that each selects.
These are all that satisfy the predicates if and only if the period reaches every one of them, of
the present year or at all; and for periods that do, the summaries are the same.
-/
theorem runQuery_rollups (hr : registry.IsDefault) (hq : Query.compile registry text = .ok q)
    (hq' : Query.compile registry text' = .ok q') (same : q.predicates = q'.predicates)
    (ht : 2 ≤ today.year) (settings : Settings) (entries : List Entry) :
    ∃ r r', runQuery registry settings today entries text = .ok r ∧
      runQuery registry settings today entries text' = .ok r' ∧
      r.RollsUp q registry settings today entries ∧
      r'.RollsUp q' registry settings today entries ∧
      ((∀ e ∈ entries, q.accepts registry settings e = true →
          q.reaches today e = true ∧ q'.reaches today e = true) →
        r.allTimeSummary = r'.allTimeSummary ∧ r.yearSummary = r'.yearSummary) ∧
      ((∀ e ∈ entries, e.HasRate) →
        (∀ e ∈ entries, q.accepts registry settings e = true → e.date.year = today.year →
          q.reaches today e = true ∧ q'.reaches today e = true) →
        r.yearSummary = r'.yearSummary) := by
  have rolled := Report.rollsUp_ofEntries q registry settings q.trendLength? today entries
  have rolled' := Report.rollsUp_ofEntries q' registry settings q'.trendLength? today entries
  have accepted := Query.accepts_congr same registry settings
  refine ⟨_, _, hr.runQuery_eq hq ht settings entries, hr.runQuery_eq hq' ht settings entries,
    rolled, rolled', fun reached => ?_, fun rated reached => ?_⟩
  · have first := fun e he ha => (reached e he ha).1
    have second := fun e he ha => (reached e he (accepted ▸ ha)).2
    constructor
    · rw [rolled.allTime.eq_accepted first, rolled'.allTime.eq_accepted second, accepted]
    · rw [rolled.year.eq_accepted first, rolled'.year.eq_accepted second, accepted]
  · have first := fun e he ha hy => (reached e he ha (beq_iff_eq.1 hy)).1
    have second := fun e he ha hy => (reached e he (accepted ▸ ha) (beq_iff_eq.1 hy)).2
    rw [rolled.year.eq_accepted_of_hasRate rated first,
      rolled'.year.eq_accepted_of_hasRate rated second, accepted]

end Default

section Examples

/-- Eight hours on a day. -/
def Entry.workday (d : Date) : Entry :=
  { Entry.blank d none with
    hours := 8.0
    hours_nonneg := by decide +kernel }

/-- The second of November 2023. -/
def Date.lateAutumn : Date :=
  ⟨2023, 11, 2, by decide, by decide, by decide, by decide, by decide, by decide⟩

/-- The second of January 2024. -/
def Date.midwinter : Date :=
  ⟨2024, 1, 2, Plan.lateAugust.year_pos, Plan.lateAugust.year_le, by decide, by decide, by decide,
    by decide⟩

/-- The current year and all of time have the same summary of the year. -/
theorem runQuery_rollups_year :
    let entries : List Entry := [.workday .lateAutumn, .workday .midwinter]
    let answer (text : String) := runQuery .standard .default Plan.lateAugust entries text
    ∃ r r', answer "PERIOD current-year" = .ok r ∧ answer "PERIOD all-time" = .ok r' ∧
      r.yearSummary = r'.yearSummary := by
  intro entries answer
  let q : Query := { period := some .currentYear }
  let q' : Query := { period := some .allTime }
  have hq : Query.compile .standard "PERIOD current-year" = .ok q :=
    ok_of_toOption (by decide +kernel)
  have hq' : Query.compile .standard "PERIOD all-time" = .ok q' :=
    ok_of_toOption (by decide +kernel)
  have rated : ∀ e ∈ entries, e.HasRate := by
    intro e he
    rcases List.mem_pair.1 he with rfl | rfl <;> nofun
  have reached : ∀ e ∈ entries, q.accepts .standard .default e = true →
      e.date.year = Plan.lateAugust.year →
      q.reaches Plan.lateAugust e = true ∧ q'.reaches Plan.lateAugust e = true := by
    decide +kernel
  have ht : 2 ≤ Plan.lateAugust.year := by decide
  obtain ⟨r, r', hr, hr', -, -, -, year⟩ :=
    runQuery_rollups (.inl rfl) hq hq' rfl ht .default entries
  exact ⟨r, r', hr, hr', year rated reached⟩

/-- The last months alone have other summaries of the year and of all time than all months do. -/
theorem exists_lost_rollups :
    let entries : List Entry :=
      [.workday .lateAutumn, .workday .midwinter, .workday Plan.lateAugust]
    let answer (text : String) := runQuery .standard .default Plan.lateAugust entries text
    ∃ r r', answer "PERIOD last-6-months" = .ok r ∧ answer "PERIOD all-time" = .ok r' ∧
      r.yearSummary ≠ r'.yearSummary ∧ r.allTimeSummary ≠ r'.allTimeSummary := by
  intro entries answer
  let hours (r : Report) : Float × Float := (r.yearSummary.totalHours, r.allTimeSummary.totalHours)
  have first : (answer "PERIOD last-6-months").toOption.map hours = some (8.0, 8.0) := by
    decide +kernel
  have second : (answer "PERIOD all-time").toOption.map hours = some (16.0, 24.0) := by
    decide +kernel
  obtain ⟨r, hr, sums⟩ := Option.map_eq_some_iff.1 first
  obtain ⟨r', hr', sums'⟩ := Option.map_eq_some_iff.1 second
  simp only [hours, Prod.mk.injEq] at sums sums'
  refine ⟨r, r', ok_of_toOption hr, ok_of_toOption hr', fun same => ?_, fun same => ?_⟩
  · rw [same, sums'.1] at sums
    exact absurd sums.1 (by decide +kernel)
  · rw [same, sums'.2] at sums
    exact absurd sums.2 (by decide +kernel)

end Examples

end Worklog
