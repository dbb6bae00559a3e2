import Worklog.Column
import Worklog.Query.Choice
import Worklog.Query.Test
import Worklog.Value

/-!
# Queries

An interpreted query: its predicates, the columns to show, and what was chosen. A part that was
not written is absent, and its default is given by the function of the part: a summary with
monthly charts, of the current year, at normal size.
-/

namespace Worklog

/-- A condition on a field, with the values it compares with. -/
structure Predicate where
  field : String
  test : Test Value
  deriving DecidableEq

/-- The text of a predicate in plans. -/
def Predicate.describe (p : Predicate) : String :=
  match p.test with
  | .compare op value => s!"{p.field} {op.symbol} {value.describe}"
  | .range low high => s!"{p.field} BETWEEN {low.describe} AND {high.describe}"

/-- A column to show, under its own label or a title. -/
structure ShownColumn where
  column : Column
  title : Option String := none
  format : Option Format := none
  deriving DecidableEq

/-- An interpreted query; the parts that were not written are absent. -/
structure Query where
  conditions : Option (List Predicate) := none
  columns : Option (List ShownColumn) := none
  view : Option View := none
  chart : Option Chart := none
  period : Option Period := none
  size : Option Size := none
  deriving DecidableEq

namespace Query

/-- The predicates, all of which an entry must satisfy. -/
def predicates (q : Query) : List Predicate :=
  q.conditions.getD []

/-- The columns to show. -/
def shown (q : Query) : List ShownColumn :=
  q.columns.getD []

/-- The view, a summary unless one was chosen. -/
def viewOrDefault (q : Query) : View :=
  q.view.getD .summary

/-- The chart, monthly unless one was chosen. -/
def chartOrDefault (q : Query) : Chart :=
  q.chart.getD .monthly

/-- The period, the current year unless one was chosen. -/
def periodOrDefault (q : Query) : Period :=
  q.period.getD .currentYear

/-- The size, normal unless one was chosen. -/
def sizeOrDefault (q : Query) : Size :=
  q.size.getD .normal

/-- The names of the parts that were written, in alphabetical order. -/
def written (q : Query) : List String :=
  [("chart", q.chart.isSome), ("period", q.period.isSome), ("show", q.columns.isSome),
    ("size", q.size.isSome), ("view", q.view.isSome), ("where", q.conditions.isSome)].filterMap
      fun part => if part.2 then some part.1 else none

/-- Whether the part of a name, in any letter case, was written. -/
def isWritten (q : Query) (name : String) : Bool :=
  q.written.contains (Text.lower name)

end Query

end Worklog
