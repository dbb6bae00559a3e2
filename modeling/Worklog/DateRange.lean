import Worklog.Checked

/-!
# Ranges of dates

A range holds all days from its start to its end, both included, and is never reversed.
-/

namespace Worklog

/-- The days from `start` to `stop`. -/
structure DateRange where
  start : Date
  stop : Date
  ordered : start ≤ stop
  deriving DecidableEq

namespace DateRange

/-- Whether a day lies in the range. -/
def contains (r : DateRange) (d : Date) : Bool :=
  r.start ≤ d && d ≤ r.stop

/-- The range between two days, unless they are reversed. -/
def between (start stop : Date) : Checked DateRange :=
  if h : start ≤ stop then .valid ⟨start, stop, h⟩ else .issue .reversed

/-- Reads a range; the order of its ends is checked only when both are days. -/
def check (j : Json) : Checked DateRange :=
  (Checked.object j).andThen fun members =>
    (Prod.mk <$> Checked.required members "start" Checked.date <*>
      Checked.required members "end" Checked.date).andThen fun ends => between ends.1 ends.2

/-- The members by which a range is written. -/
def toJson (r : DateRange) : Json :=
  .object [("start", .string r.start.iso), ("end", .string r.stop.iso)]

end DateRange

end Worklog
