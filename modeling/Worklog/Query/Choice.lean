/-!
# Choices

VIEW, CHART, PERIOD and SIZE each choose one of a few named values. A `Choice` is one of the four,
with the names that may follow it; each has a type of its values.
-/

namespace Worklog

/-- A clause that chooses one of a few named values. -/
inductive Choice where
  | view
  | chart
  | period
  | size
  deriving DecidableEq

/-- How much of a result is shown. -/
inductive View where
  | summary
  | chart
  | table
  | full
  deriving DecidableEq

/-- What a chart shows. -/
inductive Chart where
  | monthly
  | trend
  | budget
  deriving DecidableEq

/-- A window of time that is named in relation to the present day. -/
inductive Period where
  | currentYear
  | allTime
  | last6Months
  | last12Months
  deriving DecidableEq

/-- How large a result is shown. -/
inductive Size where
  | compact
  | normal
  | detailed
  deriving DecidableEq

/-- How the numbers of a column are shown. -/
inductive Format where
  | currency
  | money
  | percent
  deriving DecidableEq

namespace View

/-- All views, in the order in which messages list them. -/
def all : List View := [summary, chart, table, full]

/-- The name of a view. -/
def name : View → String
  | .summary => "summary"
  | .chart => "chart"
  | .table => "table"
  | .full => "full"

/-- The view of a name. -/
def ofName? (s : String) : Option View :=
  all.find? fun v => v.name == s

/-- Whether a chart is part of the view. -/
def showsChart : View → Bool
  | .chart | .full => true
  | .summary | .table => false

end View

namespace Chart

/-- All charts, in the order in which messages list them. -/
def all : List Chart := [monthly, trend, budget]

/-- The name of a chart. -/
def name : Chart → String
  | .monthly => "monthly"
  | .trend => "trend"
  | .budget => "budget"

/-- The chart of a name. -/
def ofName? (s : String) : Option Chart :=
  all.find? fun c => c.name == s

end Chart

namespace Period

/-- All periods, in the order in which messages list them. -/
def all : List Period := [currentYear, allTime, last6Months, last12Months]

/-- The name of a period. -/
def name : Period → String
  | .currentYear => "current-year"
  | .allTime => "all-time"
  | .last6Months => "last-6-months"
  | .last12Months => "last-12-months"

/-- The period of a name. -/
def ofName? (s : String) : Option Period :=
  all.find? fun p => p.name == s

/-- The number of months of a period that ends with the present day. -/
def rollingMonths? : Period → Option Nat
  | .last6Months => some 6
  | .last12Months => some 12
  | .currentYear | .allTime => none

end Period

namespace Size

/-- All sizes, in the order in which messages list them. -/
def all : List Size := [compact, normal, detailed]

/-- The name of a size. -/
def name : Size → String
  | .compact => "compact"
  | .normal => "normal"
  | .detailed => "detailed"

/-- The size of a name. -/
def ofName? (s : String) : Option Size :=
  all.find? fun z => z.name == s

end Size

namespace Format

/-- All formats, in the order in which messages list them. -/
def all : List Format := [currency, money, percent]

/-- The name of a format. -/
def name : Format → String
  | .currency => "currency"
  | .money => "money"
  | .percent => "percent"

/-- The format of a name. -/
def ofName? (s : String) : Option Format :=
  all.find? fun f => f.name == s

end Format

namespace Choice

/-- The word that begins the clause. -/
def word : Choice → String
  | .view => "VIEW"
  | .chart => "CHART"
  | .period => "PERIOD"
  | .size => "SIZE"

/-- The name of the clause. -/
def name : Choice → String
  | .view => "view"
  | .chart => "chart"
  | .period => "period"
  | .size => "size"

/-- What messages call a value of the choice. -/
def label : Choice → String
  | .view => "view type"
  | .chart => "chart type"
  | .period => "period"
  | .size => "size"

/-- The names that may be chosen. -/
def values : Choice → List String
  | .view => View.all.map View.name
  | .chart => Chart.all.map Chart.name
  | .period => Period.all.map Period.name
  | .size => Size.all.map Size.name

end Choice

end Worklog
