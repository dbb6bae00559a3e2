import Worklog.Proofs.Rollup.Trend
import Worklog.Proofs.Session.Selection

/-!
# Reports over the last months

The window of a rolling period begins with a day that is moved back by as many months, so the months
of its report are among those from so many months ago to the present one, of which there is one more
than the period has in its name. The trend keeps as many as the name says, and so leaves out at most
one month, the earliest (`Report.Rolls`). That holds of every session whose source has been through
any steps, whatever its registry is (`rolling_windows`).
-/

namespace Worklog

/-! ## Windows -/

/-- The window of a rolling period begins so many months ago and ends with the present day. -/
structure DateRange.RollsBack (r : DateRange) (n : Nat) (today : Date) : Prop where
  start_eq : today.addMonths (-n) = .ok r.start
  ordered : r.start ≤ r.stop
  stop_eq : r.stop = today

theorem Period.exists_rollsBack {p : Period} {n : Nat} {today : Date}
    (rolling : p.rollingMonths? = some n) (ht : 2 ≤ today.year) :
    ∃ r : DateRange, p.window today = .ok { range := some r } ∧ r.RollsBack n today := by
  obtain ⟨r, window, start, stop⟩ := exists_window_of_rollingMonths rolling ht
  exact ⟨r, window, start, r.ordered, stop⟩

/-! ## Months and trends -/

/-- The number of a month of a report. -/
def Month.number (m : Month) : Int :=
  monthNumber m.year m.month

namespace Month

variable {settings : Settings} {entries : List Entry}

/-- A month of a report is that of one of its entries. -/
theorem exists_entry_of_mem {m : Month} (hm : m ∈ ofEntries settings entries) :
    ∃ e ∈ entries, m.year = e.date.year ∧ m.month = e.date.month := by
  have mem := List.mem_map_of_mem (f := key) hm
  rw [map_key_ofEntries, (Sorting.sort_perm ..).mem_iff, MonthKey.mem_ofEntries] at mem
  obtain ⟨e, he, same⟩ := mem
  exact ⟨e, he, congrArg MonthKey.year same.symm, congrArg MonthKey.month same.symm⟩

/-- Of months of the calendar, those that come before have lower numbers. -/
theorem pairwise_number_ofEntries :
    (ofEntries settings entries).Pairwise fun a b => a.number < b.number := by
  refine (pairwise_isBefore_ofEntries settings entries).imp_of_mem fun {a b} ha hb h => ?_
  obtain ⟨d, -, -, hd⟩ := exists_entry_of_mem ha
  obtain ⟨e, -, -, he⟩ := exists_entry_of_mem hb
  have upper := d.date.month_le
  have lower := e.date.month_pos
  have before : a.year < b.year ∨ a.year = b.year ∧ a.month < b.month := MonthKey.isBefore_iff.1 h
  simp only [number, monthNumber]
  omega

end Month

/-- There are no more ascending numbers than there is room for. -/
theorem length_le_of_ascending {ns : List Int} {low high : Int} (ascending : ns.Pairwise (· < ·))
    (within : ∀ n ∈ ns, low ≤ n ∧ n ≤ high) : ns.length ≤ (high + 1 - low).toNat := by
  induction ns generalizing low with
  | nil => exact Nat.zero_le _
  | cons n ns ih =>
    rw [List.pairwise_cons] at ascending
    rw [List.forall_mem_cons] at within
    have above : ∀ m ∈ ns, n + 1 ≤ m ∧ m ≤ high := fun m hm =>
      ⟨ascending.1 m hm, (within.2 m hm).2⟩
    have rest := ih ascending.2 above
    rw [List.length_cons]
    omega

/-- A trend of at most one month more than it keeps leaves out the first of them, if any. -/
theorem Trend.exists_omitted {months : List Month} {n : Nat}
    (ascending : months.Pairwise fun a b => a.isBefore b = true) (hn : 1 ≤ n)
    (length : months.length ≤ n + 1) : ∃ omitted kept, months = omitted ++ kept ∧
      omitted.length ≤ 1 ∧ ofMonths (some n) months = series kept := by
  obtain ⟨omitted, kept, cut, count, shows⟩ :=
    (showsLast_of_ascending (some n) ascending).exists_kept
  refine ⟨omitted, kept, cut, ?_, shows⟩
  have parts : months.length = omitted.length + kept.length := by rw [cut, List.length_append]
  rw [lastCount_natCast hn] at count
  omega

/-! ## Reports -/

/-- A report over the last months and the present one. -/
structure Report.Rolls (r : Report) (n : Nat) (today : Date) : Prop where
  within : ∀ m ∈ r.months, today.monthNumber - n ≤ m.number ∧ m.number ≤ today.monthNumber
  ascending : r.months.Pairwise fun a b => a.number < b.number
  trend : ∃ omitted kept, r.months = omitted ++ kept ∧ omitted.length ≤ 1 ∧
    r.trend = Trend.series kept

namespace Date

theorem monthNumber_le_of_le {a b : Date} (h : a ≤ b) : a.monthNumber ≤ b.monthNumber := by
  rw [monthNumber_eq, monthNumber_eq]
  exact Int.add_le_add_right (monthIndex_le_of_le h) 1

/-- A day of the last months lies in one of them or in the present one. -/
theorem monthNumber_of_isWithinMonths {n : Nat} {today d : Date}
    (h : isWithinMonths n today d = true) :
    today.monthNumber - n ≤ d.monthNumber ∧ d.monthNumber ≤ today.monthNumber := by
  unfold isWithinMonths at h
  split at h
  · rename_i start hs
    rw [Bool.and_eq_true, decide_eq_true_iff, decide_eq_true_iff] at h
    have number := (today.shifts (-n)).number_eq start hs
    have lower := monthNumber_le_of_le h.1
    have upper := monthNumber_le_of_le h.2
    omega
  · cases h

end Date

/-- The report of entries of the last months rolls. -/
theorem Report.rolls_ofEntries (settings : Settings) {n : Nat} (hn : 1 ≤ n) {today : Date}
    {entries : List Entry} (within : ∀ e ∈ entries, Date.isWithinMonths n today e.date = true) :
    (Report.ofEntries settings (some n) today entries).Rolls n today := by
  let months := Month.ofEntries settings (Sorting.sort Entry.isBefore entries)
  have window : ∀ m ∈ months,
      today.monthNumber - n ≤ m.number ∧ m.number ≤ today.monthNumber := by
    intro m hm
    obtain ⟨e, he, year, month⟩ := Month.exists_entry_of_mem hm
    rw [(Sorting.sort_perm ..).mem_iff] at he
    rw [Month.number, year, month]
    exact Date.monthNumber_of_isWithinMonths (within e he)
  have ascending : months.Pairwise fun a b => a.number < b.number := Month.pairwise_number_ofEntries
  have numbers : ∀ i ∈ months.map Month.number,
      today.monthNumber - n ≤ i ∧ i ≤ today.monthNumber := by
    rw [List.forall_mem_map]
    exact window
  have length : months.length ≤ n + 1 := by
    have room := length_le_of_ascending (List.pairwise_map.2 ascending) numbers
    rw [List.length_map] at room
    omega
  exact ⟨window, ascending,
    Trend.exists_omitted (Month.pairwise_isBefore_ofEntries ..) hn length⟩

section Run

variable {s : Session} {entries : List Entry} {steps : List Source.Step} {text : String} {q : Query}

/-- What a plan's filter admits lies in the period, unless a predicate restricts time. -/
theorem Plan.covers_of_admits {registry : Registry} {today : Date} {plan : Plan} {e : Entry}
    (hq : Query.compile registry text = .ok q) (hplan : ofQuery registry q today = .ok plan)
    (ht : 2 ≤ today.year) (untimed : q.isTimed registry = false)
    (admits : plan.filter.admits e = true) : q.periodOrDefault.covers today e.date = true := by
  obtain ⟨_, f, -, -, within, -⟩ := exists_of_ofQuery hq hplan .default
  obtain ⟨plan', hplan', covers⟩ := exists_ofQuery hq ht
  cases hplan.symm.trans hplan'
  rw [within] at admits
  have covered := Filter.covers_of_admits_within admits
  rwa [covers, untimed, Bool.false_or] at covered

/-- A source answers with entries that the filter admits, whatever it has been through. -/
theorem Source.admits_of_mem_query {f : Filter} {e : Entry}
    (h : e ∈ (((Source.ofEntries entries).run steps).query f).1) : f.admits e = true := by
  rw [(reflects_run entries steps).query_eq f] at h
  exact (List.mem_filter.1 h).2

/-- A report of the last months rolls, unless a predicate restricts time. -/
theorem Session.rolls_of_run (reached : s.source = (Source.ofEntries entries).run steps)
    (ht : 2 ≤ s.today.year) (hq : Query.compile s.registry text = .ok q) {n : Nat}
    (rolling : q.periodOrDefault.rollingMonths? = some n)
    (untimed : q.isTimed s.registry = false) {report : Report}
    (answered : (s.run text).1 = .ok report) : report.Rolls n s.today := by
  obtain ⟨plan, kept, hplan, sub, rfl⟩ := exists_of_run hq answered
  obtain ⟨length, day⟩ := Plan.trendLength_and_today_ofQuery hplan
  rw [length, day, Query.trendLength?, rolling]
  rw [reached] at sub
  refine Report.rolls_ofEntries _ (Period.months_of_rollingMonths rolling).1 fun e he => ?_
  have covered := Plan.covers_of_admits hq hplan ht untimed
    (Source.admits_of_mem_query (sub.subset he))
  rwa [Period.covers_of_rollingMonths rolling] at covered

end Run

/--
Moving a date by months is an exact shift; so is the window of a rolling period, which ends with the
present day; and a report over such a period has at most one month that its trend leaves out.
-/
theorem rolling_windows :
    (∀ (d : Date) (k : Int), d.Shifts k) ∧
    (∀ (p : Period) (n : Nat) (today : Date), p.rollingMonths? = some n → 2 ≤ today.year →
      ∃ r : DateRange, p.window today = .ok { range := some r } ∧ r.RollsBack n today) ∧
    ∀ (s : Session) (entries : List Entry) (steps : List Source.Step) (text : String) (q : Query)
      (n : Nat) (report : Report), s.source = (Source.ofEntries entries).run steps →
      2 ≤ s.today.year → Query.compile s.registry text = .ok q →
      q.periodOrDefault.rollingMonths? = some n → q.isTimed s.registry = false →
      (s.run text).1 = .ok report → report.Rolls n s.today :=
  ⟨Date.shifts, fun _ _ _ => Period.exists_rollsBack,
    fun _ _ _ _ _ _ _ reached ht hq rolling untimed answered =>
      Session.rolls_of_run reached ht hq rolling untimed answered⟩

/-- Half a year that begins on a leap day has seven months, of which the trend keeps six. -/
theorem rolling_windows_leap :
    let days := (List.range 7).filterMap fun i => (Date.ofParts 2024 (i + 2) 29).toOption
    let s : Session :=
      { source := .ofEntries (days.map fun d => Entry.blank d none)
        settings := .default
        registry := .standard
        today := Plan.lateAugust }
    Plan.lateAugust.Shifts (-6) ∧
    (∃ r : DateRange, Period.last6Months.window Plan.lateAugust = .ok { range := some r } ∧
      r.RollsBack 6 Plan.lateAugust) ∧
    ∃ report, (s.run "PERIOD last-6-months").1 = .ok report ∧ report.months.length = 7 ∧
      report.Rolls 6 Plan.lateAugust := by
  intro days s
  let q : Query := { period := some .last6Months }
  have hq : Query.compile s.registry "PERIOD last-6-months" = .ok q :=
    ok_of_toOption (by decide +kernel)
  have ht : 2 ≤ s.today.year := by decide
  have answered := Registry.IsDefault.runQuery_eq (.inl rfl) hq ht s.settings
    (days.map fun d => Entry.blank d none)
  obtain ⟨shifts, window, run⟩ := rolling_windows
  refine ⟨shifts _ _, window .last6Months 6 _ rfl ht, _, answered, by decide +kernel, ?_⟩
  exact run s _ [] _ q 6 _ rfl ht hq rfl rfl answered

end Worklog
