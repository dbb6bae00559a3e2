import Worklog.Field.Registry
import Worklog.Filter
import Worklog.Query.Basic

/-!
# Pushing tests down

A source of entries can evaluate some tests by itself, as parts of its filter. The tests that are
pushed down gather in a draft. A part of the draft is set once: a second test of the part is taken
only if it asks for an equal value. When all are gathered, the draft is checked as a filter is.
-/

namespace Worklog

/-- A filter that is being gathered from tests. -/
structure FilterDraft where
  year : Option Value := none
  month : Option Value := none
  project : Option Value := none
  range : Option DateRange := none
  deriving DecidableEq

/-- Whether a part that holds `old` can be set to `new`. -/
def canSet {α : Type} (same : α → α → Bool) (old : Option α) (new : α) : Bool :=
  old.all (same · new)

/-- A value where a day is asked for. -/
def Value.asDate (v : Value) : Checked Date :=
  match v with
  | .date d => .valid d
  | .text s => Checked.dateText s
  | .int n => Checked.dateNumber n
  | .float x => Checked.wholeDay (Moment.ofFloat? x)
  | .absent => .issue .notADate

/-- A value where an integer is asked for. -/
def Value.asInteger (v : Value) : Checked Int :=
  match v with
  | .int n => .valid n
  | .float x => Checked.wholeNumber x
  | .text s => Checked.integerText s
  | .date _ | .absent => .issue .notAnInteger

/-- A value where a text is asked for. -/
def Value.asText (v : Value) : Checked String :=
  match v with
  | .text s => .valid s
  | _ => .issue .notText

/-- The range of days that a test asks for; a single value asks for one day. -/
def Test.days (t : Test Value) : Checked DateRange :=
  let stop := t.upper?.getD t.value
  (Prod.mk <$> Checked.under "start" t.value.asDate <*>
    Checked.under "end" stop.asDate).andThen fun ends => DateRange.between ends.1 ends.2

namespace FilterDraft

/-- Sets the year, unless another one is set. -/
def setYear (d : FilterDraft) (v : Value) : Option FilterDraft :=
  if canSet Value.same d.year v then some { d with year := some v } else none

/-- Sets the month, unless another one is set. -/
def setMonth (d : FilterDraft) (v : Value) : Option FilterDraft :=
  if canSet Value.same d.month v then some { d with month := some v } else none

/-- Sets the text of the project, unless another one is set. -/
def setProject (d : FilterDraft) (v : Value) : Option FilterDraft :=
  if canSet Value.same d.project v then some { d with project := some v } else none

/-- Sets the range of dates, unless another one is set. -/
def setRange (d : FilterDraft) (r : DateRange) : Option FilterDraft :=
  if canSet (· == ·) d.range r then some { d with range := some r } else none

/-- Checks a gathered part; an absent value leaves it unset. -/
def checkPart {α : Type} (key : String) (part : Option Value) (check : Value → Checked α) :
    Checked (Option α) :=
  match part with
  | none | some .absent => .valid none
  | some v => Checked.under key (some <$> check v)

/-- The filter that has been gathered. -/
def finish (d : FilterDraft) : Checked Filter :=
  Filter.mk <$>
    checkPart "year" d.year Value.asInteger <*>
    checkPart "month" d.month (fun v => v.asInteger.andThen Filter.checkMonth) <*>
    checkPart "project_filter" d.project Value.asText <*>
    .valid d.range

end FilterDraft

/-- Adds a test to a draft; there is none if a part is set already to something else. -/
def Rule.push (r : Rule) (t : Test Value) (d : FilterDraft) :
    Except Failure (Option FilterDraft) :=
  match r with
  | .year => .ok (d.setYear t.value)
  | .month => .ok (d.setMonth t.value)
  | .project => .ok (d.setProject t.value)
  | .date => do
    let range ← t.days.toExcept
    .ok (d.setRange range)
  | .service | .category | .utilization | .value | .client | .hours => .ok none

end Worklog
