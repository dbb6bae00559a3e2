import Worklog.Query.Test

/-!
# Clauses

A query is a list of clauses. The names and literals in them are kept as they were written, with
their positions: what they mean is settled only when the query is interpreted.
-/

namespace Worklog

/-- What a literal looks like. -/
inductive Literal.Kind where
  | number
  | text
  /-- A quoted text in the shape of a date. -/
  | date
  deriving DecidableEq

/-- A literal in a condition. -/
structure Literal where
  kind : Literal.Kind
  raw : String
  position : Position
  deriving DecidableEq

/-- A condition of a WHERE clause; its position is that of the field. -/
structure Condition where
  field : String
  test : Test Literal
  position : Position
  deriving DecidableEq

/-- A column of a SHOW clause; a title may stand without a field. -/
structure ColumnItem where
  field : Option String
  format : Option String
  title : Option String
  position : Position
  deriving DecidableEq

/-- What a clause says. -/
inductive Clause.Body where
  | conditions (items : List Condition)
  | columns (items : List ColumnItem)
  | choice (c : Choice) (value : String)
  /-- A clause of a kind that the language does not have. -/
  | unknown (name : String)
  deriving DecidableEq

/-- A clause; its position is that of its first word. -/
structure Clause where
  body : Clause.Body
  position : Position
  deriving DecidableEq

end Worklog
