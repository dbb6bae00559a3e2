import Worklog.Date
import Worklog.Decimal.Binary
import Worklog.Decimal.Literal

/-!
# Moments

Where a day is asked for, a moment may be given instead, and it stands for its day if it is a
midnight. A moment is written as a day and a time, perhaps with an offset from universal time that
leaves the day as it is, or as a timestamp: the number of seconds since the beginning of 1970, or
of milliseconds if the number is too large for seconds. The earliest moments lie in the year
before year 1, whose days are no dates. The readers of parts of a text give what they have read
and the rest of the text.
-/

namespace Worklog

/-- A day and a time of it. -/
structure Moment where
  /-- The day, unless it lies in the year before year 1. -/
  day : Option Date
  /-- The time since midnight, in microseconds. -/
  time : Nat
  deriving DecidableEq

namespace Moment

/-- Whether the day begins at this moment. -/
def isMidnight (m : Moment) : Bool :=
  m.time == 0

/-! ## Days and times -/

/-- The beginning of a day, which may lie in year 0. -/
def ofParts? (year month day : Nat) : Option Moment :=
  if year = 0 then
    -- Year 0 has the days of year 4, which is a leap year too.
    (Date.ofParts 4 month day).toOption.map fun _ => ⟨none, 0⟩
  else (Date.ofParts year month day).toOption.map fun d => ⟨some d, 0⟩

/-- The beginning of the day of digits in place, if there is one. -/
def ofDay? : List Char → Option Moment
  | [y₁, y₂, y₃, y₄, '-', m₁, m₂, '-', d₁, d₂] =>
    if [y₁, y₂, y₃, y₄, m₁, m₂, d₁, d₂].all Char.isDigit then
      ofParts? (Decimal.ofDigits [y₁, y₂, y₃, y₄]) (Decimal.ofDigits [m₁, m₂])
        (Decimal.ofDigits [d₁, d₂])
    else none
  | _ => none

/-- Two digits that write a number below a bound. -/
def pair? (bound : Nat) : List Char → Option (Nat × List Char)
  | a :: b :: rest =>
    if a.isDigit && b.isDigit && decide (Decimal.ofDigits [a, b] < bound) then
      some (Decimal.ofDigits [a, b], rest)
    else none
  | _ => none

/-- What follows a colon. -/
def afterColon? : List Char → Option (List Char)
  | ':' :: rest => some rest
  | _ => none

/-- The microseconds of the digits after the point; those beyond the sixth do not count. -/
def microseconds (digits : List Char) : Nat :=
  Decimal.ofDigits ((digits.take 6).rightpad 6 '0')

/-- The microseconds of a fraction of a second, if there is one; it has at least one digit. -/
def fraction? (cs : List Char) : Option (Nat × List Char) :=
  if cs.head? = some '.' ∨ cs.head? = some ',' then
    let digits := cs.tail.takeWhile Char.isDigit
    if digits.isEmpty then none else some (microseconds digits, cs.tail.dropWhile Char.isDigit)
  else some (0, cs)

/-- The microseconds of seconds after a colon, if there are any. -/
def seconds? (cs : List Char) : Option (Nat × List Char) :=
  match afterColon? cs with
  | none => some (0, cs)
  | some cs => do
    let (s, cs) ← pair? 60 cs
    let (f, cs) ← fraction? cs
    pure (s * 1000000 + f, cs)

/-- The microseconds of a time of day, in hours and minutes and perhaps seconds. -/
def time? (cs : List Char) : Option (Nat × List Char) := do
  let (h, cs) ← pair? 24 cs
  let cs ← afterColon? cs
  let (m, cs) ← pair? 60 cs
  let (s, cs) ← seconds? cs
  pure ((h * 60 + m) * 60000000 + s, cs)

/-- Whether the text is an offset in hours and minutes, after its sign. -/
def isHoursAndMinutes (cs : List Char) : Bool :=
  match pair? 24 cs with
  | none => false
  | some (_, cs) =>
    match pair? 60 ((afterColon? cs).getD cs) with
    | some (_, []) => true
    | _ => false

/-- Whether the text is nothing, the letter of universal time, or an offset from it. -/
def isOffset : List Char → Bool
  | [] => true
  | ['Z'] => true
  | ['z'] => true
  | c :: cs => (c == '+' || c == '-' || c == '−') && isHoursAndMinutes cs

/-- Whether a character may stand between a day and a time. -/
def isDivider (c : Char) : Bool :=
  c == 'T' || c == 't' || c == ' ' || c == '_'

/-- The moment of a day and a time. -/
def ofDayAndTime? (cs : List Char) : Option Moment := do
  let start ← ofDay? (cs.take 10)
  let divider ← (cs.drop 10).head?
  let (time, rest) ← time? (cs.drop 11)
  if isDivider divider && isOffset rest then some { start with time } else none

/-! ## Timestamps -/

/-- The days from the first day of year 1 to the first day of 1970. -/
def daysBefore1970 : Int := 719162

/-- The first second of year 0 and the last of year 9999, which bound the timestamps. -/
def secondsAllowed (n : Int) : Bool :=
  decide (-62167219200 ≤ n ∧ n ≤ 253402300799)

/-- The day so many days after the first day of 1970, unless it lies in year 0. -/
def dayAfter1970? (n : Int) : Option Date :=
  if 0 ≤ daysBefore1970 + n then Date.ofDayNumber? (daysBefore1970 + n).toNat else none

/-- The moment so many seconds and microseconds after the beginning of 1970. -/
def ofSeconds? (seconds : Int) (micros : Nat) : Option Moment :=
  let seconds := seconds + micros / 1000000
  if secondsAllowed seconds then
    some ⟨dayAfter1970? (seconds / 86400),
      (seconds % 86400).toNat * 1000000 + micros % 1000000⟩
  else none

/-- Whether a number is too large for a timestamp in seconds. -/
def inMilliseconds (n : Int) : Bool :=
  decide (20000000000 < n.natAbs)

/-- The moment of a timestamp, and so many microseconds after it. -/
def ofTimestamp? (n : Int) (micros : Nat) : Option Moment :=
  if inMilliseconds n then ofSeconds? (n / 1000) ((n % 1000).toNat * 1000 + micros)
  else ofSeconds? n micros

/-- The moment of a written timestamp without a point; milliseconds beyond the second are cut. -/
def ofWholeText? (n : Int) : Option Moment :=
  ofSeconds? (if inMilliseconds n then n / 1000 else n) 0

/-- The part of a number after the point, with the number's sign. -/
def afterPoint (x : Float) : Float :=
  x - (if x < 0.0 then x.ceil else x.floor)

/-- The number of microseconds that a part of a second comes to. -/
def roundedMicros (part : Float) : Nat :=
  (part * 1000000.0).round.toUInt32.toNat

/-- The moment of a timestamp that need not be whole. -/
def ofFloat? (x : Float) : Option Moment :=
  (Decimal.whole? x.floor).bind fun n => ofTimestamp? n (roundedMicros (afterPoint x).abs)

/-- The moment of a timestamp that is not written as an integer; one that is not a number is 0. -/
def ofRealText? (x : Float) : Option Moment :=
  if x.isNaN then ofTimestamp? 0 0
  else
    let x := if x.abs > 20000000000.0 then x / 1000.0 else x
    (Decimal.whole? x.floor).bind fun n => ofTimestamp? n (roundedMicros (x - x.floor))

/-- The moment of a written timestamp: an integer, or else any number. -/
def ofTimestampText? (cs : List Char) : Option Moment :=
  match Decimal.readInt? cs with
  | some n => ofWholeText? n
  | none => (Decimal.number? cs).bind ofRealText?

/-- The moment that a text writes, in any way. -/
def ofText? (cs : List Char) : Option Moment :=
  (ofDay? cs).or ((ofDayAndTime? cs).or (ofTimestampText? cs))

end Moment

end Worklog
