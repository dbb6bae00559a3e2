import Worklog.Date
import Worklog.Decimal.Literal

/-!
# Figures

The numbers derived from hours and rates: invoiced amounts, utilization, target hours and budget
progress. Every ratio is zero unless its denominator is positive. Sums run from left to right and
start at zero, so the order of the summands is part of a sum's meaning.
-/

namespace Worklog

/-- The plain sum from left to right, starting at zero: what a step loses is not made up for. -/
def total (xs : List Float) : Float :=
  xs.foldl (· + ·) 0.0

/-- A ratio, which is zero unless the denominator is positive. -/
def ratio (numerator denominator : Float) : Float :=
  if denominator > 0.0 then numerator / denominator else 0.0

/-- A rate, where none at all counts as zero, and a negative zero as a positive one. -/
def rateOrZero (rate : Option Float) : Float :=
  match rate with
  | none => 0.0
  | some r => if r == 0.0 then 0.0 else r

/-- The amount that hours at a rate are invoiced at. -/
def invoicedAmount (hours : Float) (rate : Option Float) : Float :=
  hours * rateOrZero rate

/-- Hours as a share of one working day. -/
def dailyUtilization (hours hoursPerWorkday : Float) : Float :=
  ratio hours hoursPerWorkday

/-- The hours of a month with so many working days. -/
def targetHours (workingDays : Nat) (hoursPerWorkday : Float) : Float :=
  Decimal.ofInt workingDays * hoursPerWorkday

/-- How much of a budget is used up, and how much is left. -/
structure BudgetFigures where
  progress : Option Float
  remaining : Option Float
  deriving DecidableEq

/-- The figures of hours against a budget; there are none unless the budget is positive. -/
def budgetFigures (used : Float) (budget : Option Float) : BudgetFigures :=
  match budget with
  | none => ⟨none, none⟩
  | some b => if b == 0.0 || b <= 0.0 then ⟨none, none⟩ else ⟨some (used / b), some (b - used)⟩

end Worklog
