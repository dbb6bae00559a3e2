import Worklog.Decimal.Binary
import Worklog.Decimal.Literal
import Worklog.Text.Blank
import Worklog.Text.Digit

/-!
# Numerals

How a literal may write its number: in the digits of any script, with white space around it, and
with underscores that part groups of digits. Each underscore stands between two digits.
-/

namespace Worklog.Decimal.Numeral

/-- The numeral in ASCII digits, without the white space around it. -/
def plain (raw : String) : List Char :=
  (Text.unpad raw.toList).map Text.asciiDigit

/-- The characters without underscores, unless one does not stand between two digits. -/
def joined? : List Char → Option (List Char)
  | [] => some []
  | '_' :: _ => none
  | c :: '_' :: d :: cs =>
    if c.isDigit && d.isDigit then (joined? (d :: cs)).map (c :: ·) else none
  | c :: cs => (joined? cs).map (c :: ·)

/-- Why a text is not read as an integer. -/
inductive Fault where
  | unreadable
  /-- More digits than may be read. -/
  | tooLong (digits : Nat)
  deriving DecidableEq

/-- The most digits of an integer that are read. -/
def digitLimit : Nat := 4300

/--
The integer of a numeral. Its digits are counted before anything that follows them is looked at.
-/
def integer (raw : String) : Except Fault Int :=
  match takeSign (plain raw) with
  | (negative, cs) =>
    let inNumber (c : Char) : Bool := c.isDigit || c == '_'
    match joined? (cs.takeWhile inNumber) with
    | none | some [] => .error .unreadable
    | some ds =>
      if digitLimit < ds.length then .error (.tooLong ds.length)
      else if (cs.dropWhile inNumber).isEmpty then .ok (signed negative (ofDigits ds))
      else .error .unreadable

/-- The binary64 number nearest to the decimal of a numeral. -/
def real? (raw : String) : Option Float :=
  ((joined? (plain raw)).bind readWritten?).map Written.value

/-- Whether two underscores stand next to each other. -/
def isDoubled (cs : List Char) : Bool :=
  (cs.zip cs.tail).any fun (a, b) => a == '_' && b == '_'

/-- The text without its underscores, if none of them stands at an end or next to another. -/
def ungrouped? (cs : List Char) : Option (List Char) :=
  if cs.head? = some '_' ∨ cs.getLast? = some '_' ∨ isDoubled cs then none
  else some (cs.filter (· != '_'))

end Worklog.Decimal.Numeral
