import Worklog.DateRange
import Worklog.Entry
import Worklog.Json.Writer
import Worklog.Text.Contains

/-!
# Filters

A filter is the coarse condition that a source of entries evaluates by itself: a year, a month, a
text in the project, and a range of dates, of which all that are set must hold. A source keeps its
results under the filter's key (`Filter.cacheKey`), which spells out all four parts.
-/

namespace Worklog

/-- A coarse condition on entries; parts that are not set hold of every entry. -/
structure Filter where
  year : Option Int := none
  month : Option Int := none
  project : Option String := none
  range : Option DateRange := none
  deriving DecidableEq

namespace Filter

/-- A month from 1 to 12. -/
def checkMonth (n : Int) : Checked Int :=
  if n < 1 then .issue .tooSmall else if 12 < n then .issue .tooLarge else .valid n

/-- Reads a filter; members it does not know are ignored. -/
def check (j : Json) : Checked Filter :=
  (Checked.object j).andThen fun members =>
    Filter.mk <$>
      Checked.optional members "year" Checked.integer <*>
      Checked.optional members "month" (fun j => (Checked.integer j).andThen checkMonth) <*>
      Checked.optional members "project_filter" Checked.text <*>
      Checked.optional members "date_range" DateRange.check

/-- Whether an entry meets every part that is set; an empty text in the project is not. -/
def admits (f : Filter) (e : Entry) : Bool :=
  f.year.all (· == (e.date.year : Int)) &&
    f.month.all (· == (e.date.month : Int)) &&
    f.project.all (fun s => s.isEmpty || Text.mentions s [e.project]) &&
    f.range.all (·.contains e.date)

/-- The members by which a filter is written. -/
def toJson (f : Filter) : Json :=
  .object
    [("year", Json.ofOption .int f.year), ("month", Json.ofOption .int f.month),
      ("project_filter", Json.ofOption .string f.project),
      ("date_range", Json.ofOption DateRange.toJson f.range)]

/-- The text under which the results of a filter are kept. -/
def cacheKey (f : Filter) : String :=
  Json.render .compact f.toJson

end Filter

end Worklog
