import Worklog.Decimal.Numeral

/-!
# Integers given as texts

Records may give an integer as a text. In its strict form it is a minus sign, if any, and digits
without needless zeros in front; a text of another form is made tidy first, by taking away the
white space around it, zeros in front, places after the point that are all zero, and single
underscores. There is no plus sign.
-/

namespace Worklog.Decimal.WholeText

/--
The integer in strict form. Its characters are counted before anything that follows them is
looked at.
-/
def strict (cs : List Char) : Except Numeral.Fault Int :=
  let negative := cs.head? = some '-'
  let rest := if negative then cs.tail else cs
  let digits := rest.takeWhile Char.isDigit
  if digits.isEmpty then .error .unreadable
  else if digits.head? = some '0' then if rest = ['0'] then .ok 0 else .error .unreadable
  else
    let length := cs.length - (rest.length - digits.length)
    if Numeral.digitLimit < length then .error (.tooLong length)
    else if digits.length < rest.length then .error .unreadable
    else .ok (signed negative (ofDigits digits))

/-- What follows zeros and underscores; `last` is the one of them that was read last. -/
def afterZeros? (last : Char) : List Char → Option (List Char)
  | [] => some [last]
  | c :: cs =>
    if c = '0' ∨ c = '_' then afterZeros? c cs
    else if c = '.' then some (last :: c :: cs)
    else if c.isDigit then some (c :: cs)
    else none

/-- The text without zeros in front; one is kept where no other digit stands before the point. -/
def withoutZeros? : List Char → Option (List Char)
  | [] => none
  | c :: cs =>
    if c = '0' then afterZeros? c cs
    else if c = '-' ∨ c.isDigit then some (c :: cs)
    else none

/-- The text without the point and what follows it, if that is nothing but zeros. -/
def withoutPlaces (cs : List Char) : List Char :=
  if (cs.dropWhile (· != '.')).tail.all (· == '0') then cs.takeWhile (· != '.') else cs

/-- The text in tidy form; there is none if it does not begin as an integer does. -/
def tidy? (cs : List Char) : Option (List Char) :=
  (withoutZeros? (Text.unpad cs)).map fun cs =>
    (Numeral.ungrouped? (withoutPlaces cs)).getD (withoutPlaces cs)

/-- The integer that a text gives, in strict form or made tidy. -/
def read (cs : List Char) : Except Numeral.Fault Int :=
  match strict cs with
  | .error .unreadable => ((tidy? cs).map strict).getD (.error .unreadable)
  | answer => answer

end Worklog.Decimal.WholeText
