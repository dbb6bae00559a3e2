import Worklog.Proofs.Chain
import Worklog.Proofs.Decimal.Order
import Worklog.Report

/-!
# Reports computed with every check

The figures of a report are defined by total functions, some of which stand for operations that are
not: a division, the days of a month as dates, the name of a month. Here a report is computed once
more by operations that fail where those are not defined (`Stepwise.report`). The months of entries
are real ones and every divisor has been compared with zero, so that no step fails and the result
is the report itself (`Stepwise.report_eq`).
-/

namespace Worklog

namespace Stepwise

/-- Why an operation has no result. -/
inductive Fault where
  | zeroDivisor
  | date (fault : Date.Fault)
  | noMonthName
  deriving DecidableEq

/-! ## Figures -/

/-- A quotient; there is none by zero. -/
def quotient (a b : Float) : Except Fault Float :=
  if b == 0.0 then .error .zeroDivisor else .ok (a / b)

/-- A ratio, which is zero unless the denominator is positive. -/
def ratio (numerator denominator : Float) : Except Fault Float :=
  if denominator > 0.0 then quotient numerator denominator else .ok 0.0

/-- The figures of hours against a budget; there are none unless the budget is positive. -/
def budgetFigures (used : Float) (budget : Option Float) : Except Fault BudgetFigures :=
  match budget with
  | none => .ok ⟨none, none⟩
  | some b =>
    if b == 0.0 || b <= 0.0 then .ok ⟨none, none⟩
    else do
      let progress ← quotient used b
      .ok ⟨some progress, some (b - used)⟩

theorem quotient_of_pos {b : Float} (a : Float) (h : 0.0 < b) : quotient a b = .ok (a / b) := by
  rw [quotient, Decimal.beq_eq_false_of_pos h]
  rfl

theorem ratio_eq (a b : Float) : ratio a b = .ok (Worklog.ratio a b) := by
  unfold ratio Worklog.ratio
  split
  · rename_i h
    exact quotient_of_pos a h
  · rfl

theorem budgetFigures_eq (used : Float) (budget : Option Float) :
    budgetFigures used budget = .ok (Worklog.budgetFigures used budget) := by
  cases budget with
  | none => rfl
  | some b =>
    simp only [budgetFigures, Worklog.budgetFigures]
    split
    · rfl
    · rename_i h
      rw [Bool.or_eq_true, not_or] at h
      rw [quotient, if_neg h.1]
      rfl

/-! ## Months -/

/-- The day of the week of a day of a month, which has to be a date. -/
def weekday (k : MonthKey) (day : Nat) : Except Fault Nat :=
  match Date.ofParts k.year k.month day with
  | .ok d => .ok (Date.weekday d.year d.month d.day)
  | .error fault => .error (.date fault)

/-- The number of days from Monday to Friday in a month, which has to be one of the twelve. -/
def workingDays (k : MonthKey) : Except Fault Nat :=
  if k.month < 1 ∨ 12 < k.month then .error (.date (.month k.month))
  else do
    let days ← (List.range (daysInMonth k.year k.month)).mapM fun i => weekday k (i + 1)
    .ok (days.countP (· < 5))

/-- The hours of a month in which every working day is worked. -/
def target (k : MonthKey) (hoursPerWorkday : Float) : Except Fault Float := do
  let days ← workingDays k
  .ok (targetHours days hoursPerWorkday)

/-- The label of a month, which has to have a name. -/
def label (k : MonthKey) : Except Fault String :=
  match monthLabelAt? k.year k.month with
  | some s => .ok s
  | none => .error .noMonthName

/-- A month of the calendar. -/
def Real (k : MonthKey) : Prop :=
  (1 ≤ k.year ∧ k.year ≤ 9999) ∧ 1 ≤ k.month ∧ k.month ≤ 12

theorem real_ofDate (d : Date) : Real (MonthKey.ofDate d) :=
  ⟨⟨d.year_pos, d.year_le⟩, d.month_pos, d.month_le⟩

theorem real_of_mem_ofEntries {entries : List Entry} :
    ∀ k ∈ MonthKey.ofEntries entries, Real k := by
  intro k hk
  obtain ⟨e, -, rfl⟩ := List.mem_map.1 (List.mem_eraseDups.1 hk)
  exact real_ofDate e.date

variable {k : MonthKey}

theorem weekday_eq (hk : Real k) {i : Nat} (hi : i < daysInMonth k.year k.month) :
    weekday k (i + 1) = .ok (Date.weekday k.year k.month (i + 1)) := by
  have hd : 1 ≤ i + 1 ∧ i + 1 ≤ daysInMonth k.year k.month := by omega
  simp only [weekday, Date.ofParts, dif_pos hk.1, dif_pos hk.2, dif_pos hd]

theorem workingDays_eq (hk : Real k) : workingDays k = .ok (Date.workingDays k.year k.month) := by
  have hm : ¬ (k.month < 1 ∨ 12 < k.month) := by
    have := hk.2
    omega
  have days : (List.range (daysInMonth k.year k.month)).mapM (fun i => weekday k (i + 1)) = .ok _ :=
    mapM_ok fun i hi => weekday_eq hk (List.mem_range.1 hi)
  simp only [workingDays, if_neg hm, days, bind, Except.bind, List.countP_map]
  rfl

theorem target_eq (hk : Real k) (hoursPerWorkday : Float) :
    target k hoursPerWorkday = .ok (k.target hoursPerWorkday) := by
  rw [target, workingDays_eq hk]
  rfl

theorem label_eq (hk : Real k) : label k = .ok (monthLabel k.year k.month) := by
  obtain ⟨year, month⟩ := k
  obtain ⟨-, hm, hm'⟩ := hk
  simp only at hm hm'
  obtain ⟨m, rfl⟩ := Nat.exists_eq_add_of_le' hm
  have named : monthNames[m]? = some (monthNames.getD m "") := by
    have hlt : m < monthNames.length := by
      change m < 12
      omega
    rw [List.getD_eq_getElem?_getD, List.getElem?_eq_getElem hlt]
    rfl
  have hneg : ¬ ((m + 1 : Nat) : Int) < 0 := by omega
  simp only [label, monthLabelAt?, if_neg hneg, Int.toNat_natCast, List.getElem?_cons_succ, named,
    Option.map_some, monthLabel]
  rw [String.append_assoc]
  rfl

/-! ## Sums -/

/-- The sums of a month; `before` are the hours of all earlier months. -/
def month (settings : Settings) (before : Float) (k : MonthKey) (entries : List Entry) :
    Except Fault Month := do
  let hours := totalHours entries
  let invoiced := totalInvoiced entries
  let target ← target k settings.hoursPerWorkday
  let cumulative := before + hours
  let tracked ← budgetFigures cumulative settings.budget
  let label ← label k
  let utilization ← ratio hours target
  let rate ← ratio invoiced hours
  .ok
    { year := k.year
      month := k.month
      label
      hours
      invoiced
      utilization
      rate
      cumulativeHours := cumulative
      budget := settings.budget
      tracked }

/-- The sums of the months with the given keys, one after the other. -/
def accumulate (settings : Settings) (entries : List Entry) (before : Float) :
    List MonthKey → Except Fault (List Month)
  | [] => .ok []
  | k :: ks => do
    let m ← month settings before k (inMonth k entries)
    let ms ← accumulate settings entries m.cumulativeHours ks
    .ok (m :: ms)

/-- The sums over entries; the target counts every month in which there is one, once. -/
def summary (settings : Settings) (entries : List Entry) : Except Fault Summary := do
  let hours := Worklog.totalHours entries
  let targets ← (MonthKey.setOfEntries entries).mapM fun k => target k settings.hoursPerWorkday
  let tracked ← budgetFigures hours settings.budget
  let utilization ← ratio hours (total targets)
  .ok
    { totalHours := hours
      totalInvoiced := Worklog.totalInvoiced entries
      utilization
      budget := settings.budget
      tracked }

/-- The report of entries on a day; the trend keeps its last months. -/
def report (settings : Settings) (trendLength : Option Nat) (today : Date) (entries : List Entry) :
    Except Fault Report := do
  let ordered := Sorting.sort Entry.isBefore entries
  let months ← accumulate settings ordered 0.0
    (Sorting.sort MonthKey.isBefore (MonthKey.ofEntries ordered))
  let whole ← summary settings ordered
  let ofYear ← summary settings (ordered.filter fun e => e.date.year == today.year)
  let allTime ← summary settings ordered
  .ok
    { entries := ordered
      months
      trend := Trend.ofMonths (trendLength.map Int.ofNat) months
      summary := whole
      yearSummary := ofYear
      allTimeSummary := allTime }

variable {settings : Settings}

theorem month_eq (hk : Real k) (before : Float) (entries : List Entry) :
    month settings before k entries = .ok (Month.ofBucket settings before k entries) := by
  simp only [month, target_eq hk, budgetFigures_eq, label_eq hk, ratio_eq, bind, Except.bind]
  rfl

theorem accumulate_eq {ks : List MonthKey} (hks : ∀ k ∈ ks, Real k) (entries : List Entry)
    (before : Float) :
    accumulate settings entries before ks = .ok (Month.accumulate settings entries before ks) := by
  induction ks generalizing before with
  | nil => rfl
  | cons k ks ih =>
    rw [List.forall_mem_cons] at hks
    simp only [accumulate, month_eq hks.1, ih hks.2, bind, Except.bind]
    rfl

theorem summary_eq (entries : List Entry) :
    summary settings entries = .ok (Summary.ofEntries settings entries) := by
  have real : ∀ k ∈ MonthKey.setOfEntries entries, Real k := fun k hk =>
    real_of_mem_ofEntries k ((MonthKey.setOfEntries_perm entries).mem_iff.1 hk)
  have targets : (MonthKey.setOfEntries entries).mapM
      (fun k => target k settings.hoursPerWorkday) = .ok _ :=
    mapM_ok fun k hk => target_eq (real k hk) settings.hoursPerWorkday
  simp only [summary, targets, budgetFigures_eq, ratio_eq, bind, Except.bind]
  rfl

/-- A report can be computed with every check, whatever the entries and the settings are. -/
theorem report_eq (trendLength : Option Nat) (today : Date) (entries : List Entry) :
    report settings trendLength today entries =
      .ok (Report.ofEntries settings trendLength today entries) := by
  have months (ordered : List Entry) : accumulate settings ordered 0.0
      (Sorting.sort MonthKey.isBefore (MonthKey.ofEntries ordered)) =
        .ok (Month.ofEntries settings ordered) :=
    accumulate_eq (fun k hk => real_of_mem_ofEntries k ((Sorting.sort_perm _ _).mem_iff.1 hk)) _ _
  simp only [report, months, summary_eq, bind, Except.bind]
  rfl

end Stepwise

end Worklog
