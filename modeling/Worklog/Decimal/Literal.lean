/-!
# Reading decimals

The binary64 number nearest to a decimal, of two equally near ones the even one. Decimals beyond
the range of the format become infinite, and those below it become zero.
-/

namespace Worklog.Decimal

/-- The number of digits of `n`; zero has one. -/
def digitCount (n : Nat) : Nat :=
  (Nat.toDigits 10 n).length

/-- The binary64 number nearest to `mantissa · 10 ^ exponent`. -/
def nearest (mantissa : Nat) (exponent : Int) : Float :=
  let magnitude := exponent + digitCount mantissa
  if mantissa = 0 ∨ magnitude < -330 then 0.0
  else if magnitude > 310 then 1.0 / 0.0
  else Float.ofScientific mantissa (decide (exponent < 0)) exponent.natAbs

/-- The binary64 number nearest to `± mantissa · 10 ^ exponent`. -/
def nearestSigned (negative : Bool) (mantissa : Nat) (exponent : Int) : Float :=
  if negative then -(nearest mantissa exponent) else nearest mantissa exponent

/-- The binary64 number nearest to a whole number. -/
def ofInt (n : Int) : Float :=
  nearestSigned (decide (n < 0)) n.natAbs 0

/-- The value of a list of ASCII digits, most significant first. -/
def ofDigits (ds : List Char) : Nat :=
  ds.foldl (fun n c => 10 * n + (c.toNat - '0'.toNat)) 0

/-- A decimal as it is written: a sign, digits around a point, and an exponent. -/
structure Written where
  negative : Bool
  whole : List Char
  /-- The digits after the point, if there is one. -/
  fraction : Option (List Char)
  exponent : Option Int

/-- A minus or plus sign, if one stands first, and what follows it. -/
def takeSign : List Char → Bool × List Char
  | '-' :: rest => (true, rest)
  | '+' :: rest => (false, rest)
  | cs => (false, cs)

/-- A signed number of at least one digit, with nothing after it. -/
def readInt? (cs : List Char) : Option Int :=
  match takeSign cs with
  | (negative, ds) =>
    if ds.isEmpty || !ds.all Char.isDigit then none
    else some (if negative then -(ofDigits ds : Int) else ofDigits ds)

/-- The parts of a decimal that fills the text; one side of the point may lack digits. -/
def readWritten? (cs : List Char) : Option Written :=
  match takeSign cs with
  | (negative, cs) =>
    let whole := cs.takeWhile Char.isDigit
    let rest := cs.dropWhile Char.isDigit
    let fraction := if rest.head? = some '.' then some (rest.tail.takeWhile Char.isDigit) else none
    let rest := if rest.head? = some '.' then rest.tail.dropWhile Char.isDigit else rest
    if whole.isEmpty && (fraction.getD []).isEmpty then none
    else
      match rest with
      | [] => some ⟨negative, whole, fraction, none⟩
      | e :: ds =>
        if e = 'e' ∨ e = 'E' then
          (readInt? ds).map fun exponent => ⟨negative, whole, fraction, some exponent⟩
        else none

/-- The binary64 number nearest to a written decimal. -/
def Written.value (w : Written) : Float :=
  let fraction := w.fraction.getD []
  nearestSigned w.negative (ofDigits (w.whole ++ fraction)) (w.exponent.getD 0 - fraction.length)

/-- The number of a name, in any letter case. -/
def named? (cs : List Char) : Option Float :=
  match takeSign cs with
  | (negative, name) =>
    match String.ofList (name.map Char.toLower) with
    | "inf" | "infinity" => some (if negative then -1.0 / 0.0 else 1.0 / 0.0)
    | "nan" => some (0.0 / 0.0)
    | _ => none

/-- The number that digits or a name write. -/
def number? (cs : List Char) : Option Float :=
  ((readWritten? cs).map Written.value).or (named? cs)

end Worklog.Decimal
