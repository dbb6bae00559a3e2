import Worklog.Decimal.Shortest

/-!
# Layouts of numbers

Where the shortest decimal of a number is shown, a layout says how: which exponents are written
out in place, how the other ones are marked, and what stands for values that are not finite.
-/

namespace Worklog.Decimal

/-- How a binary64 number is written with its shortest digits. -/
structure Layout where
  /-- The least exponent of the first digit that is written in place. -/
  least : Int
  /-- The least exponent, from there on, that is not. -/
  limit : Int
  /-- The fewest digits of a written exponent. -/
  exponentWidth : Nat
  infinity : String
  negativeInfinity : String
  nan : String

/-- Digits written in place, with at least one on each side of the point. -/
def inPlace (d : Digits) : List Char :=
  if d.point ≤ 0 then
    '0' :: '.' :: List.replicate (-d.point).toNat '0' ++ d.digits
  else
    let before := d.point.toNat
    let fraction := d.digits.drop before
    (d.digits ++ List.replicate (before - d.digits.length) '0').take before ++
      '.' :: (if fraction.isEmpty then ['0'] else fraction)

/-- Digits with one before the point and an exponent after them. -/
def withExponent (width : Nat) (d : Digits) : List Char :=
  let e := d.point - 1
  let fraction := d.digits.drop 1
  d.digits.take 1 ++ (if fraction.isEmpty then [] else '.' :: fraction) ++
    'e' :: (if e < 0 then '-' else '+') :: (Nat.toDigits 10 e.natAbs).leftpad width '0'

/-- The text of a positive number. -/
def Layout.positive (l : Layout) (d : Digits) : List Char :=
  if l.least ≤ d.point - 1 ∧ d.point - 1 < l.limit then inPlace d
  else withExponent l.exponentWidth d

/-- The text of a number. -/
def Layout.write (l : Layout) (x : Float) : String :=
  match exact x with
  | .nan => l.nan
  | .infinite negative => if negative then l.negativeInfinity else l.infinity
  | .finite negative mantissa exponent =>
    let text := if mantissa = 0 then ['0', '.', '0'] else l.positive (shortest mantissa exponent)
    String.ofList (if negative then '-' :: text else text)

/-- The layout of messages and plans: in place from `0.0001` to below `1e+16`. -/
def plain : Layout :=
  { least := -4
    limit := 16
    exponentWidth := 2
    infinity := "inf"
    negativeInfinity := "-inf"
    nan := "nan" }

end Worklog.Decimal
