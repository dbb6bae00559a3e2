import Worklog.Checked
import Worklog.Decimal.Numeral
import Worklog.Query.Error

/-!
# Failures

Not everything that goes wrong is the fault of a query: input may fail its checks, a registry may
refuse a handler, a number may be too long to read, a value may be of a kind that cannot be
compared or formatted. `Failure` has a case for each of these beside the query's own errors.
-/

namespace Worklog

/-- Why an operation has no result. -/
inductive Failure where
  | query (error : QueryError)
  | invalid (issues : List Issue)
  | date (fault : Date.Fault)
  /-- An integer is written with more digits than are read. -/
  | tooManyDigits (count : Nat)
  | unreadableInteger (raw : String)
  | unreadableReal (raw : String)
  /-- A name is none of those of a group of values. -/
  | notAMember (name group : String)
  | fieldTaken (key : String)
  | notPushable (field : String)
  | thresholdUnsupported (operator : Operator)
  | unknownKey (key : String)
  /-- Values of two kinds are compared, or a kind of value has no such text. -/
  | kindMismatch
  /-- A text is formatted as a number. -/
  | notFormattable
  /-- An integer is too large to be formatted with places. -/
  | tooLargeToFormat
  /-- Something else is looked for in texts. -/
  | notAText
  /-- Something else is shown as a day. -/
  | notADay
  | noMonthName
  | sourceFailed (message : String)
  deriving DecidableEq

namespace Failure

/-- The most characters of a quoted text that the wording of an unreadable integer shows. -/
def shownLimit : Nat := 200

/-- The wording of a failure, if it has one. -/
def message? : Failure → Option String
  | .query e => some e.message
  | .invalid _ => none
  | .date fault => fault.message?
  | .tooManyDigits count =>
    let limit := Decimal.Numeral.digitLimit
    some (s!"Exceeds the limit ({limit} digits) for integer string conversion: " ++
      s!"value has {count} digits; use sys.set_int_max_str_digits() to increase the limit")
  | .unreadableInteger raw =>
    some ("invalid literal for int() with base 10: " ++
      String.ofList ((Text.quoted raw).toList.take shownLimit))
  | .unreadableReal raw => some s!"could not convert string to float: {Text.quoted raw}"
  | .notAMember name group => some s!"{Text.quoted name} is not a valid {group}"
  | .fieldTaken key => some s!"Handler for field '{key}' already registered"
  | .notPushable field => some s!"Pushdown handler '{field}' needs apply_pushdown"
  | .thresholdUnsupported operator =>
    some s!"Unsupported threshold operator '{operator.symbol}'"
  | .unknownKey key => some key
  | .kindMismatch | .notFormattable | .tooLargeToFormat | .notAText | .notADay => none
  | .noMonthName => none
  | .sourceFailed message => some message

end Failure

/-- A checked value, or the issues as a failure. -/
def Checked.toExcept {α : Type} : Checked α → Except Failure α
  | .valid a => .ok a
  | .invalid issues => .error (.invalid issues)

end Worklog
