import Worklog.Settings
import Worklog.Value

/-!
# Columns

The columns that a table of entries may show: their names, labels, kinds, and what they show of an
entry.
-/

namespace Worklog

/-- A column of a table of entries. -/
inductive Column where
  | date
  | project
  | client
  | category
  | notes
  | hours
  | rate
  | invoiced
  | utilization
  deriving DecidableEq

/-- What kind of value a column shows, which decides how it is written. -/
inductive Column.Kind where
  | date
  | text
  | hours
  | currency
  | percent
  deriving DecidableEq

namespace Column

/-- All kinds. -/
def Kind.all : List Kind := [.date, .text, .hours, .currency, .percent]

/-- The name of a kind. -/
def Kind.name : Kind → String
  | .date => "date"
  | .text => "text"
  | .hours => "hours"
  | .currency => "currency"
  | .percent => "percent"

/-- The kind of a name. -/
def Kind.ofName? (s : String) : Option Kind :=
  all.find? fun k => k.name == s

/-- All columns, in the order of the catalog. -/
def all : List Column :=
  [date, project, client, category, notes, hours, rate, invoiced, utilization]

/-- The name by which a query asks for the column. -/
def name : Column → String
  | .date => "date"
  | .project => "project"
  | .client => "client"
  | .category => "category"
  | .notes => "notes"
  | .hours => "hours"
  | .rate => "rate"
  | .invoiced => "invoiced"
  | .utilization => "utilization"

/-- The column of a name. -/
def ofName? (s : String) : Option Column :=
  all.find? fun c => c.name == s

/-- The header of the column when it has no title. -/
def label : Column → String
  | .date => "Date"
  | .project => "Project"
  | .client => "Client"
  | .category => "Category"
  | .notes => "Notes"
  | .hours => "Hours"
  | .rate => "Rate"
  | .invoiced => "Invoiced"
  | .utilization => "Utilization"

/-- The kind of the column's values. -/
def kind : Column → Kind
  | .date => .date
  | .project | .client | .category | .notes => .text
  | .hours => .hours
  | .rate | .invoiced => .currency
  | .utilization => .percent

/-- What the column shows, in words. -/
def description : Column → String
  | .date => "Entry date"
  | .project => "Project / work order"
  | .client => "Client name"
  | .category => "Service category"
  | .notes => "Free-form notes"
  | .hours => "Hours worked"
  | .rate => "Hourly rate"
  | .invoiced => "Hours x rate"
  | .utilization => "Hours divided by hours per workday"

/-- What the column shows of an entry. -/
def value? (c : Column) (settings : Settings) (e : Entry) : Option Value :=
  match c with
  | .date => some (.date e.date)
  | .project => e.project.map .text
  | .client => e.client.map .text
  | .category => e.category.map .text
  | .notes => e.notes.map .text
  | .hours => some (.float e.hours)
  | .rate => e.rate.map .float
  | .invoiced => some (.float e.invoiced)
  | .utilization => some (.float (dailyUtilization e.hours settings.hoursPerWorkday))

end Column

end Worklog
