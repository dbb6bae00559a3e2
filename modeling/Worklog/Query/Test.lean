import Worklog.Token.Basic

/-!
# Tests

A condition tests its field in one of two ways: by comparing it with one value, or by asking
whether it lies in a range. The values are literals while a query is being read, and `Value`s
once it has been interpreted.
-/

namespace Worklog

/-- How a condition tests its field. -/
inductive Test (α : Type) where
  | compare (operator : Operator) (value : α)
  /-- From `low` to `high`, both included. -/
  | range (low high : α)
  deriving DecidableEq

namespace Test

variable {α : Type}

/-- The operator of a test. -/
def operator : Test α → Operator
  | .compare op _ => op
  | .range _ _ => .between

/-- The value that a test starts from. -/
def value : Test α → α
  | .compare _ a => a
  | .range low _ => low

/-- The upper end of a range. -/
def upper? : Test α → Option α
  | .compare _ _ => none
  | .range _ high => some high

end Test

end Worklog
