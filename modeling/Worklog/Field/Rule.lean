import Worklog.Failure
import Worklog.Text.Blank

/-!
# Field rules

A rule is what a field means: the kind of value it is compared with, which values it accepts, and
(in the modules on matching and pushing down) which entries satisfy a test of it. There are ten
rules, and a field with a meaning of its own is not expressed here; handlers give the rules names
and settle what may be asked of them.
-/

namespace Worklog

/-- What a field means. -/
inductive Rule where
  | year
  | month
  | project
  | date
  | service
  | category
  | utilization
  | value
  | client
  | hours
  deriving DecidableEq

namespace Rule

/-- All rules. -/
def all : List Rule :=
  [year, month, project, date, service, category, utilization, value, client, hours]

/-- The name of a rule, which is also what messages call its values. -/
def name : Rule → String
  | .year => "year"
  | .month => "month"
  | .project => "project"
  | .date => "date"
  | .service => "service"
  | .category => "category"
  | .utilization => "utilization"
  | .value => "value"
  | .client => "client"
  | .hours => "hours"

/-- The rule of a name. -/
def ofName? (s : String) : Option Rule :=
  all.find? fun r => r.name == s

/-- The kind of value that a field of the rule is compared with. -/
inductive Kind where
  | number
  | text
  | date
  deriving DecidableEq

/-- The name of a kind in answers. -/
def Kind.name : Kind → String
  | .number => "number"
  | .text => "string"
  | .date => "date"

/-- The kind of value that the rule compares with. -/
def kind : Rule → Kind
  | .year | .month | .utilization | .value | .hours => .number
  | .project | .service | .category | .client => .text
  | .date => .date

/-- The rule in words. -/
def description : Rule → String
  | .year => "Calendar year of the entry"
  | .month => "Calendar month (1-12) of the entry"
  | .project => "Case-insensitive substring of the project / work order"
  | .date => "Entry date, a single day or an inclusive range"
  | .service => "Substring of the project or notes"
  | .category => "Substring of the category or notes"
  | .utilization => "Entry hours divided by hours per workday"
  | .value => "Hourly rate of the entry"
  | .client => "Substring of the client name"
  | .hours => "Hours booked on the entry"

/-- Whether a source of entries can evaluate tests of the rule. -/
def isPushable : Rule → Bool
  | .year | .month | .project | .date => true
  | .service | .category | .utilization | .value | .client | .hours => false

/-- A whole number within bounds, as an integer. -/
def wholeWithin (label : String) (low high : Int) (v : Value) : Except Cause Value :=
  let bounded (n : Int) : Except Cause Value :=
    if low ≤ n ∧ n ≤ high then .ok (.int n) else .error (.outOfBounds label low high (.int n))
  match v with
  | .int n => bounded n
  | .float x =>
    match Decimal.whole? x with
    | some n => bounded n
    | none => .error (.notWhole label v)
  | _ => .ok v

/-- A number that is not negative. -/
def notNegative (label : String) (v : Value) : Except Cause Value :=
  if v.less? (.int 0) = some true then .error (.negative label v) else .ok v

/-- A text that is not blank. -/
def notBlank (label : String) (v : Value) : Except Cause Value :=
  match v with
  | .text s => if Text.isAllBlank s then .error (.empty label) else .ok v
  | _ => .ok v

/-- Accepts a value of the rule's kind, in canonical form, or says why not. -/
def accept (r : Rule) (v : Value) : Except Cause Value :=
  match r with
  | .year => wholeWithin r.name 1 9999 v
  | .month => wholeWithin r.name 1 12 v
  | .project | .service | .category => notBlank r.name v
  | .utilization | .value => notNegative r.name v
  | .date | .client | .hours => .ok v

end Rule

end Worklog
