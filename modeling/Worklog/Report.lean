import Worklog.Rollup
import Worklog.Sorting

/-!
# Reports

The report of a query holds the entries that satisfy it, in a fixed order, with their rollups. Its
members are written under the same names wherever it goes; only the way a number is written
differs, and is therefore a parameter.
-/

namespace Worklog

/-- What a query reports. -/
structure Report where
  entries : List Entry
  months : List Month
  trend : Trend
  summary : Summary
  /-- The summary of the entries of the present year. -/
  yearSummary : Summary
  allTimeSummary : Summary
  deriving DecidableEq

/-- The report of entries on a day; the trend keeps its last months. -/
def Report.ofEntries (settings : Settings) (trendLength : Option Nat) (today : Date)
    (entries : List Entry) : Report :=
  let ordered := Sorting.sort Entry.isBefore entries
  let months := Month.ofEntries settings ordered
  { entries := ordered
    months
    trend := Trend.ofMonths (trendLength.map Int.ofNat) months
    summary := Summary.ofEntries settings ordered
    yearSummary := Summary.ofEntries settings (ordered.filter fun e => e.date.year == today.year)
    allTimeSummary := Summary.ofEntries settings ordered }

section Members

variable (number : Float → Json)

/-- The members of an entry. -/
def Entry.toJson (e : Entry) : Json :=
  .object
    [("date", .string e.date.iso), ("hours", number e.hours),
      ("rate", Json.ofOption number e.rate), ("project", Json.ofOption .string e.project),
      ("client", Json.ofOption .string e.client), ("category", Json.ofOption .string e.category),
      ("notes", Json.ofOption .string e.notes)]

/-- The members of a budget and the figures against it. -/
def budgetMembers (budget : Option Float) (figures : BudgetFigures) : List (String × Json) :=
  [("budget_hours", Json.ofOption number budget),
    ("budget_progress", Json.ofOption number figures.progress),
    ("budget_remaining", Json.ofOption number figures.remaining)]

/-- The members of a month. -/
def Month.toJson (m : Month) : Json :=
  .object <|
    [("year", .int m.year), ("month", .int m.month), ("label", .string m.label),
      ("hours", number m.hours), ("invoiced", number m.invoiced),
      ("utilization", number m.utilization), ("rate", number m.rate),
      ("cumulative_hours", number m.cumulativeHours)] ++ budgetMembers number m.budget m.tracked

/-- The members of a trend. -/
def Trend.toJson (t : Trend) : Json :=
  .object
    [("labels", Json.ofList .string t.labels), ("hours", Json.ofList number t.hours),
      ("utilization", Json.ofList number t.utilization),
      ("invoiced", Json.ofList number t.invoiced)]

/-- The members of a summary. -/
def Summary.toJson (s : Summary) : Json :=
  .object <|
    [("total_hours", number s.totalHours), ("total_invoiced", number s.totalInvoiced),
      ("utilization", number s.utilization)] ++ budgetMembers number s.budget s.tracked

/-- The members of a report. -/
def Report.toJson (r : Report) : Json :=
  .object
    [("entries", Json.ofList (Entry.toJson number) r.entries),
      ("monthly_data", Json.ofList (Month.toJson number) r.months),
      ("trend_data", r.trend.toJson number), ("summary", r.summary.toJson number),
      ("year_summary", r.yearSummary.toJson number),
      ("all_time_summary", r.allTimeSummary.toJson number)]

end Members

end Worklog
