import Worklog.Decimal.WholeText
import Worklog.Json.Basic
import Worklog.Moment

/-!
# Checked input

Entries, settings and filters come from outside as JSON and are checked as a whole: a `Checked`
value is either the thing read or all the issues found, each with the path to its place, in the
order of the fields. Combining two checked values with `<*>` keeps the issues of both.
-/

namespace Worklog

/-- What is wrong with a part of the input. -/
inductive Issue.Kind where
  | notAnObject
  | missing
  | notADate
  | unreadableDate
  /-- A day in the year before year 1. -/
  | yearZero
  /-- A moment within a day where a whole day is asked for. -/
  | notAWholeDay
  | notANumber
  | unreadableNumber
  | notAnInteger
  | unreadableInteger
  /-- An integer with too many digits, or beyond what a binary64 number may stand for. -/
  | integerTooLong
  | notWhole
  | notFinite
  | notText
  | emptyText
  | notAChoice
  | tooSmall
  /-- Not greater than a bound that is itself excluded. -/
  | notAbove
  | tooLarge
  | reversed
  deriving DecidableEq

/-- The name of a kind of issue in answers. -/
def Issue.Kind.code : Issue.Kind → String
  | .notAnObject => "model_type"
  | .missing => "missing"
  | .notADate => "date_type"
  | .unreadableDate => "date_from_datetime_parsing"
  | .yearZero => "date_parsing"
  | .notAWholeDay => "date_from_datetime_inexact"
  | .notANumber => "float_type"
  | .unreadableNumber => "float_parsing"
  | .notAnInteger => "int_type"
  | .unreadableInteger => "int_parsing"
  | .integerTooLong => "int_parsing_size"
  | .notWhole => "int_from_float"
  | .notFinite => "finite_number"
  | .notText => "string_type"
  | .emptyText => "string_too_short"
  | .notAChoice => "enum"
  | .tooSmall => "greater_than_equal"
  | .notAbove => "greater_than"
  | .tooLarge => "less_than_equal"
  | .reversed => "value_error"

/-- An issue and the path of keys to where it is. -/
structure Issue where
  path : List String
  kind : Issue.Kind
  deriving DecidableEq

/-- A value that passed its checks, or the issues that were found. -/
inductive Checked (α : Type) where
  | valid (a : α)
  | invalid (issues : List Issue)

namespace Checked

variable {α β : Type}

/-- Applies a checked function; the issues of the function come first. -/
protected def apply (f : Checked (α → β)) (x : Unit → Checked α) : Checked β :=
  match f, x () with
  | .valid f, .valid a => .valid (f a)
  | .valid _, .invalid issues => .invalid issues
  | .invalid issues, .valid _ => .invalid issues
  | .invalid issues, .invalid more => .invalid (issues ++ more)

instance : Applicative Checked where
  pure := .valid
  seq := Checked.apply

/-- The value itself is at fault. -/
def issue (kind : Issue.Kind) : Checked α :=
  .invalid [⟨[], kind⟩]

/-- Goes on with a valid value. -/
def andThen (x : Checked α) (f : α → Checked β) : Checked β :=
  match x with
  | .valid a => f a
  | .invalid issues => .invalid issues

/-- Adds a key in front of the paths. -/
def under (key : String) : Checked α → Checked α
  | .valid a => .valid a
  | .invalid issues => .invalid (issues.map fun i => { i with path := key :: i.path })

/-- The members of an object. -/
def object (j : Json) : Checked (List (String × Json)) :=
  match j with
  | .object members => .valid members
  | _ => issue .notAnObject

/-- A member that must be present. -/
def required (members : List (String × Json)) (key : String) (check : Json → Checked α) :
    Checked α :=
  match Json.lookup? members key with
  | some j => under key (check j)
  | none => under key (issue .missing)

/-- A member that has a default. -/
def defaulted (members : List (String × Json)) (key : String) (default : α)
    (check : Json → Checked α) : Checked α :=
  match Json.lookup? members key with
  | some j => under key (check j)
  | none => .valid default

/-- A member that may be absent or null. -/
def optional (members : List (String × Json)) (key : String) (check : Json → Checked α) :
    Checked (Option α) :=
  match Json.lookup? members key with
  | none | some .null => .valid none
  | some j => under key (some <$> check j)

/-- A text. -/
def text : Json → Checked String
  | .string s => .valid s
  | _ => issue .notText

/--
The number that a text writes: with white space around it, or else with single underscores
between its characters.
-/
def numberText? (s : String) : Option Float :=
  (Decimal.number? (Text.unpad s.toList)).or
    ((Decimal.Numeral.ungrouped? s.toList).bind Decimal.number?)

/-- A whole number where a binary64 number is asked for, unless it is too large. -/
def wholeAsNumber (n : Int) : Checked Float :=
  if (Decimal.ofInt n).isInf then issue .notANumber else .valid (Decimal.ofInt n)

/-- A number, also as text; true and false count as one and zero. -/
def number : Json → Checked Float
  | .float x => .valid x
  | .int n => wholeAsNumber n
  | .bool b => .valid (if b then 1.0 else 0.0)
  | .string s =>
    match numberText? s with
    | some x => .valid x
    | none => issue .unreadableNumber
  | _ => issue .notANumber

/-- The bound of the whole numbers that a binary64 number may stand for. -/
def wholeBound : Nat := 9223372036854775808

/-- A binary64 number that is whole. -/
def wholeNumber (x : Float) : Checked Int :=
  match Decimal.whole? x with
  | some n => if n.natAbs < wholeBound then .valid n else issue .integerTooLong
  | none => issue (if x.isNaN || x.isInf then .notFinite else .notWhole)

/-- The integer that a text gives. -/
def integerText (s : String) : Checked Int :=
  match Decimal.WholeText.read s.toList with
  | .ok n => .valid n
  | .error .unreadable => issue .unreadableInteger
  | .error (.tooLong _) => issue .integerTooLong

/-- An integer, also as text or as a number that is whole. -/
def integer : Json → Checked Int
  | .int n => .valid n
  | .float x => wholeNumber x
  | .bool b => .valid (if b then 1 else 0)
  | .string s => integerText s
  | _ => issue .notAnInteger

/-- The day that begins at a moment, if there is such a moment. -/
def wholeDay (moment : Option Moment) : Checked Date :=
  match moment with
  | none => issue .unreadableDate
  | some m =>
    if m.isMidnight then
      match m.day with
      | some day => .valid day
      | none => issue .yearZero
    else issue .notAWholeDay

/-- The day that a text writes, or the day that begins at the moment it writes. -/
def dateText (s : String) : Checked Date :=
  wholeDay (Moment.ofText? s.toList)

/-- The day that begins at a timestamp, unless the number is too large for any. -/
def dateNumber (n : Int) : Checked Date :=
  if (Decimal.ofInt n).isInf then issue .notADate else wholeDay (Moment.ofTimestamp? n 0)

/-- A day. -/
def date : Json → Checked Date
  | .string s => dateText s
  | .int n => dateNumber n
  | .float x => wholeDay (Moment.ofFloat? x)
  | _ => issue .notADate

end Checked

end Worklog
