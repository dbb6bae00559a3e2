import Worklog.Decimal.Fixed

/-!
# Amounts

How numbers are shown to people: amounts of money and plain numbers with two places, hours without
needless zeros, and shares as percentages with one place. A number that is absent has a text of
its own.
-/

namespace Worklog

/-- What is shown for an absent number. -/
def notAvailable : String := "N/A"

/-- A number with two places and grouped thousands. -/
def showNumber (x : Float) : String :=
  Decimal.fixed true 2 x

/-- An amount of money, its symbol in front. -/
def showCurrency (symbol : String) (x : Float) : String :=
  symbol ++ showNumber x

/-- A share as a percentage. -/
def showPercent (x : Float) : String :=
  Decimal.fixed false 1 (x * 100.0) ++ "%"

/-- A text without the given character at its end. -/
def dropEnd (c : Char) (cs : List Char) : List Char :=
  (cs.reverse.dropWhile (· == c)).reverse

/-- Hours, without the zeros and the point at the end. -/
def showHours (x : Float) : String :=
  String.ofList (dropEnd '.' (dropEnd '0' (showNumber x).toList))

end Worklog
