import Worklog.Decimal.Binary
import Worklog.Decimal.Literal

/-!
# The shortest decimal that reads back

A binary64 number stands for an interval of reals, all those that are nearer to it than to its
neighbours (`Interval`). It is written with the fewest digits whose decimal lies in that interval,
and among the decimals with that many digits the one nearest to the number. For a given number of
digits only the two decimals next to the number need be looked at: if any decimal of that length
lies in the interval, one of these does.
-/

namespace Worklog.Decimal

/-- A positive decimal `0.d₁d₂… · 10 ^ point`. -/
structure Digits where
  digits : List Char
  point : Int

/--
The reals that read back as one positive number, as multiples of `1 / scale`: from `low` to
`high`, with `value` the number itself. The ends belong to it when `closed` is set.
-/
structure Interval where
  low : Nat
  value : Nat
  high : Nat
  scale : Nat
  closed : Bool

/--
The interval of `mantissa · 2 ^ exponent`. Below a power of two the neighbour is nearer than
above it, except at the bottom of the range.
-/
def Interval.of (mantissa : Nat) (exponent : Int) : Interval :=
  let up := twoTo (exponent - 2).toNat
  let below := if mantissa = twoTo 52 ∧ exponent > -1074 then 1 else 2
  { low := (4 * mantissa - below) * up
    value := 4 * mantissa * up
    high := (4 * mantissa + 2) * up
    scale := twoTo (2 - exponent).toNat
    closed := mantissa % 2 == 0 }

/-- Whether `n / d` lies in the interval. -/
def Interval.contains (i : Interval) (n d : Nat) : Bool :=
  if i.closed then i.low * d ≤ n * i.scale && n * i.scale ≤ i.high * d
  else i.low * d < n * i.scale && n * i.scale < i.high * d

/-- The exponent of the first digit of `n / d`: the greatest `e` with `10 ^ e ≤ n / d`. -/
def leadingExponent (n d : Nat) : Int :=
  if d ≤ n then (digitCount (n / d) : Int) - 1
  else
    let k := digitCount (d / n)
    if n * tenTo (k - 1) = d then 1 - (k : Int) else -(k : Int)

/-- The decimal `n · 10 ^ exponent` without zeros at its end. -/
def Digits.of (n : Nat) (exponent : Int) : Digits :=
  let ds := Nat.toDigits 10 n
  ⟨(ds.reverse.dropWhile (· == '0')).reverse, exponent + ds.length⟩

/--
The decimal with `count` digits in the interval, if there is one, the nearer of the two next to
the number; of two equally near ones the even one.
-/
def Interval.withDigits? (i : Interval) (count : Nat) : Option Digits :=
  let exponent := leadingExponent i.value i.scale + 1 - count
  let num := tenTo exponent.toNat
  let den := tenTo (-exponent).toNat
  -- The number is `n / d` in units of the last digit.
  let n := i.value * den
  let d := i.scale * num
  let down := n / d
  let lower := i.contains (down * num) den
  let upper := i.contains ((down + 1) * num) den
  let twice := 2 * (n % d)
  let takesLower := lower && (!upper || twice < d || (twice == d && down % 2 == 0))
  if takesLower then some (.of down exponent)
  else if upper then some (.of (down + 1) exponent)
  else none

/-- The shortest decimal that reads back as the positive number `mantissa · 2 ^ exponent`. -/
def shortest (mantissa : Nat) (exponent : Int) : Digits :=
  let i := Interval.of mantissa exponent
  ((List.range 17).findSome? fun k => i.withDigits? (k + 1)).getD ⟨['0'], 1⟩

end Worklog.Decimal
