import Worklog.Entry
import Worklog.Text.Lower

/-!
# Settings

The currency symbol, the length of a working day, and how the work is billed. Settings are read
from JSON (`Settings.check`) or from environment variables (`Settings.ofEnvironment`).
-/

namespace Worklog

/-- How work is billed. -/
inductive Billing where
  | hourly
  | fixedHours
  | retainer
  deriving DecidableEq

namespace Billing

/-- The name of a kind of billing. -/
def name : Billing → String
  | .hourly => "hourly"
  | .fixedHours => "fixed-hours"
  | .retainer => "retainer"

/-- The kind of billing of a name. -/
def ofName? (s : String) : Option Billing :=
  [hourly, fixedHours, retainer].find? fun b => b.name == s

/-- Whether hours are billed against a budget. -/
def tracksBudget : Billing → Bool
  | .hourly => false
  | .fixedHours | .retainer => true

end Billing

/-- The settings of a report. -/
structure Settings where
  currencySymbol : String
  hoursPerWorkday : Float
  billing : Billing
  /-- The hours agreed upon, whether or not the kind of billing tracks them. -/
  agreedHours : Option Float
  hoursPerWorkday_pos : 0.0 < hoursPerWorkday
  agreedHours_nonneg : ∀ h ∈ agreedHours, 0.0 ≤ h

namespace Settings

/-- The symbol of amounts when none is set. -/
def defaultSymbol : String := "€"

/-- A working day of eight hours when none is set. -/
def defaultWorkday : { x : Float // 0.0 < x } :=
  ⟨8.0, by decide +kernel⟩

/-- Settings with hourly billing and everything else as by default. -/
def default : Settings :=
  { currencySymbol := defaultSymbol
    hoursPerWorkday := defaultWorkday.1
    billing := .hourly
    agreedHours := none
    hoursPerWorkday_pos := defaultWorkday.2
    agreedHours_nonneg := by simp }

/-- The billing part of settings. -/
structure Project where
  billing : Billing
  agreedHours : Option { x : Float // 0.0 ≤ x }

/-- Settings from checked parts. -/
def ofParts (symbol : String) (workday : { x : Float // 0.0 < x }) (project : Project) :
    Settings :=
  { currencySymbol := symbol
    hoursPerWorkday := workday.1
    billing := project.billing
    agreedHours := project.agreedHours.map Subtype.val
    hoursPerWorkday_pos := workday.2
    agreedHours_nonneg := by
      intro h hh
      obtain ⟨x, -, rfl⟩ := Option.map_eq_some_iff.1 hh
      exact x.2 }

/-- A currency symbol, which is not empty. -/
def checkSymbol (j : Json) : Checked String :=
  (Checked.text j).andThen fun s => if s.isEmpty then .issue .emptyText else .valid s

/-- The length of a working day, which is positive. -/
def checkWorkday (j : Json) : Checked { x : Float // 0.0 < x } :=
  (Checked.number j).andThen fun x => if h : 0.0 < x then .valid ⟨x, h⟩ else .issue .notAbove

/-- A kind of billing by its exact name. -/
def checkBilling (j : Json) : Checked Billing :=
  match j with
  | .string s =>
    match Billing.ofName? s with
    | some billing => .valid billing
    | none => .issue .notAChoice
  | _ => .issue .notAChoice

/-- The billing part of settings. -/
def checkProject (j : Json) : Checked Project :=
  (Checked.object j).andThen fun members =>
    Project.mk <$>
      Checked.defaulted members "type" .hourly checkBilling <*>
      Checked.optional members "budget_hours" Checked.nonnegative

/-- Reads settings; members they do not know are ignored. -/
def check (j : Json) : Checked Settings :=
  (Checked.object j).andThen fun members =>
    ofParts <$>
      Checked.defaulted members "currency_symbol" defaultSymbol checkSymbol <*>
      Checked.defaulted members "hours_per_workday" defaultWorkday checkWorkday <*>
      Checked.defaulted members "project" ⟨.hourly, none⟩ checkProject

/-- The budget that hours are tracked against: it must be positive and of a kind that has one. -/
def budget (s : Settings) : Option Float :=
  if s.billing.tracksBudget then s.agreedHours.filter fun h => !(h == 0.0 || h <= 0.0) else none

/-- The environment variables that hold settings. -/
def variableNames : List String :=
  ["TIMESHEET_CURRENCY_SYMBOL", "TIMESHEET_HOURS_PER_WORKDAY", "TIMESHEET_PROJECT_TYPE",
    "TIMESHEET_BUDGET_HOURS"]

/-- The value of a variable without white space around it; a blank one counts as unset. -/
def readVariable (environment : List (String × String)) (name : String) : Option String :=
  match environment.find? fun v => v.1 == name with
  | some (_, value) => if Text.isAllBlank value then none else some (Text.trimmed value)
  | none => none

/-- A member for a variable that is set. -/
def memberOf (key : String) (value : Option String) : List (String × Json) :=
  match value with
  | some s => [(key, .string s)]
  | none => []

/-- The settings that environment variables hold; the kind of billing is read in any case. -/
def ofEnvironment (environment : List (String × String)) : Checked Settings :=
  let project :=
    memberOf "type" ((readVariable environment "TIMESHEET_PROJECT_TYPE").map Text.lower) ++
      memberOf "budget_hours" (readVariable environment "TIMESHEET_BUDGET_HOURS")
  check <| .object <|
    memberOf "currency_symbol" (readVariable environment "TIMESHEET_CURRENCY_SYMBOL") ++
      memberOf "hours_per_workday" (readVariable environment "TIMESHEET_HOURS_PER_WORKDAY") ++
      (if project.isEmpty then [] else [("project", .object project)])

end Settings

end Worklog
