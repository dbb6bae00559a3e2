import Worklog.Decimal.Power

/-!
# The exact value of a binary number

Hours, rates and ratios are binary64 numbers. Comparing them with integers and writing them in
decimal needs their exact values, which `exact` reads off their bits: a sign, and a whole number
times a power of two.
-/

namespace Worklog.Decimal

/-- The value of a binary64 number; a finite one is `± mantissa · 2 ^ exponent`. -/
inductive Exact where
  | nan
  | infinite (negative : Bool)
  | finite (negative : Bool) (mantissa : Nat) (exponent : Int)
  deriving DecidableEq

/-- The exact value of a binary64 number. -/
def exact (x : Float) : Exact :=
  let bits := x.toBits.toNat
  let negative := bits / twoTo 63 == 1
  let field : Nat := bits / twoTo 52 % twoTo 11
  let fraction : Nat := bits % twoTo 52
  if field = 2047 then
    if fraction = 0 then .infinite negative else .nan
  else if field = 0 then .finite negative fraction (-1074)
  else .finite negative (twoTo 52 + fraction) ((field : Int) - 1075)

/-- A whole number with a sign. -/
def signed (negative : Bool) (n : Nat) : Int :=
  if negative then -(n : Int) else n

/--
How a finite value lies to a whole number. Both sides are scaled until the power of two is a
whole number.
-/
def compareFinite (negative : Bool) (mantissa : Nat) (exponent n : Int) : Ordering :=
  compare (signed negative mantissa * twoTo exponent.toNat) (n * twoTo (-exponent).toNat)

/-- How a binary64 number lies to a whole number; `none` if it is not a number. -/
def compareWithInt? (x : Float) (n : Int) : Option Ordering :=
  match exact x with
  | .nan => none
  | .infinite negative => some (if negative then .lt else .gt)
  | .finite negative mantissa exponent => some (compareFinite negative mantissa exponent n)

/-- The whole number that a binary64 number is, or `none` if it is not whole. -/
def whole? (x : Float) : Option Int :=
  match exact x with
  | .finite negative mantissa exponent =>
    if exponent ≥ 0 then some (signed negative (mantissa * twoTo exponent.toNat))
    else
      let unit := twoTo (-exponent).toNat
      if mantissa % unit = 0 then some (signed negative (mantissa / unit)) else none
  | _ => none

end Worklog.Decimal
