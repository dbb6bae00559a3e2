import Worklog.Decimal.Binary

/-!
# Fixed places

Table cells show numbers with a fixed number of decimal places. The exact binary value is
rounded, a half goes to the even neighbour, and the sign is kept even when everything rounds away.
-/

namespace Worklog.Decimal

/-- The whole number nearest to `n / d`; a half goes to the even neighbour. -/
def roundHalfEven (n d : Nat) : Nat :=
  let down := n / d
  let twice := 2 * (n % d)
  if twice < d ∨ (twice = d ∧ down % 2 = 0) then down else down + 1

/-- Digits with a comma before every third from the end. -/
def groupThousands : List Char → List Char
  | [] => []
  | c :: rest =>
    if rest.length % 3 = 0 ∧ rest ≠ [] then c :: ',' :: groupThousands rest
    else c :: groupThousands rest

/-- The digits of `n / 10 ^ places`, the point before the last `places` of them. -/
def placed (grouped : Bool) (places n : Nat) : List Char :=
  let whole := Nat.toDigits 10 (n / tenTo places)
  (if grouped then groupThousands whole else whole) ++
    '.' :: (Nat.toDigits 10 (n % tenTo places)).leftpad places '0'

/-- A number with `places` decimal places, its whole part grouped by thousands if asked. -/
def fixed (grouped : Bool) (places : Nat) (x : Float) : String :=
  match exact x with
  | .nan => "nan"
  | .infinite negative => if negative then "-inf" else "inf"
  | .finite negative mantissa exponent =>
    let n :=
      roundHalfEven (mantissa * twoTo exponent.toNat * tenTo places) (twoTo (-exponent).toNat)
    let text := placed grouped places n
    String.ofList (if negative then '-' :: text else text)

end Worklog.Decimal
