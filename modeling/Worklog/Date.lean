import Worklog.Text.Digit

/-!
# Calendar dates

Days of the Gregorian calendar in the years 1 to 9999. A `Date` always names a real day, so
everything that can go wrong with one (`Date.Fault`) goes wrong where it is built: from its parts
(`Date.ofParts`), from text (`Date.parse`), or by moving another date (`Date.addMonths`).
-/

namespace Worklog

/-- Whether February has a twenty-ninth day. -/
def isLeapYear (year : Nat) : Bool :=
  year % 4 == 0 && (year % 100 != 0 || year % 400 == 0)

/-- The number of days of a month; the months are numbered from 1. -/
def daysInMonth (year month : Nat) : Nat :=
  if month = 2 then if isLeapYear year then 29 else 28
  else if month = 4 ∨ month = 6 ∨ month = 9 ∨ month = 11 then 30
  else 31

/-- A real day of a year from 1 to 9999. -/
structure Date where
  year : Nat
  month : Nat
  day : Nat
  year_pos : 1 ≤ year
  year_le : year ≤ 9999
  month_pos : 1 ≤ month
  month_le : month ≤ 12
  day_pos : 1 ≤ day
  day_le : day ≤ daysInMonth year month
  deriving DecidableEq

namespace Date

/-- Why something is not a date. -/
inductive Fault where
  | month (n : Int)
  | year (n : Int)
  /-- The year has more than thirty-one binary digits. -/
  | yearTooFar
  | day
  /-- The text does not have the shape of a date. -/
  | notADate (text : String)
  /-- The text has the shape of a date, but its month or day has no such digits. -/
  | badDigits
  deriving DecidableEq

/-- The wording of a fault; one that only rejects a text has none. -/
def Fault.message? : Fault → Option String
  | .month n => some s!"bad month number {n}; must be 1-12"
  | .year n => some s!"year {n} is out of range"
  | .day => some "day is out of range for month"
  | .notADate text => some s!"'{text}' is not a YYYY-MM-DD date"
  | .yearTooFar | .badDigits => none

/-- The fault of a year that no date has. -/
def Fault.ofYear (n : Int) : Fault :=
  if -2147483648 ≤ n ∧ n < 2147483648 then .year n else .yearTooFar

/-- The day with these parts. -/
def ofParts (year month day : Nat) : Except Fault Date :=
  if hy : 1 ≤ year ∧ year ≤ 9999 then
    if hm : 1 ≤ month ∧ month ≤ 12 then
      if hd : 1 ≤ day ∧ day ≤ daysInMonth year month then
        .ok ⟨year, month, day, hy.1, hy.2, hm.1, hm.2, hd.1, hd.2⟩
      else .error .day
    else .error (.month month)
  else .error (.year year)

/-- The digits of a date read as one number, which orders dates by time. -/
def stamp (d : Date) : Nat :=
  (d.year * 100 + d.month) * 100 + d.day

instance : LE Date := ⟨fun a b => a.stamp ≤ b.stamp⟩
instance : LT Date := ⟨fun a b => a.stamp < b.stamp⟩
instance (a b : Date) : Decidable (a ≤ b) := inferInstanceAs (Decidable (a.stamp ≤ b.stamp))
instance (a b : Date) : Decidable (a < b) := inferInstanceAs (Decidable (a.stamp < b.stamp))

/-- A number with zeros in front up to `width` digits. -/
def padded (width n : Nat) : List Char :=
  (Nat.toDigits 10 n).leftpad width '0'

/-- The written form, `YYYY-MM-DD`. -/
def iso (d : Date) : String :=
  String.ofList (padded 4 d.year ++ '-' :: padded 2 d.month ++ '-' :: padded 2 d.day)

/-- The number of days before the year. -/
def daysBeforeYear (year : Nat) : Nat :=
  let y := year - 1
  365 * y + y / 4 - y / 100 + y / 400

/-- The number of days of the year before the month. -/
def daysBeforeMonth (year month : Nat) : Nat :=
  (List.range (month - 1)).foldl (fun n m => n + daysInMonth year (m + 1)) 0

/-- The day of the week, from 0 for Monday; the first day of year 1 was a Monday. -/
def weekday (year month day : Nat) : Nat :=
  (daysBeforeYear year + daysBeforeMonth year month + (day - 1)) % 7

/-- The number of days from Monday to Friday in a month. -/
def workingDays (year month : Nat) : Nat :=
  (List.range (daysInMonth year month)).countP fun i => weekday year month (i + 1) < 5

/-- The number of working days of a month that may not exist. -/
def workingDaysIn (year month : Int) : Except Fault Nat :=
  if month < 1 ∨ 12 < month then .error (.month month)
  else if year < 1 ∨ 9999 < year then .error (.ofYear year)
  else .ok (workingDays year.toNat month.toNat)

/-- The greatest of the numbers up to `high` that satisfies a condition, or 0. -/
def lastUpTo (p : Nat → Bool) : Nat → Nat
  | 0 => 0
  | n + 1 => if p (n + 1) then n + 1 else lastUpTo p n

/-- The day so many days after the first day of year 1. -/
def ofDayNumber? (n : Nat) : Option Date :=
  -- Four hundred years have 146097 days; no year begins more than two after this estimate.
  let year := lastUpTo (fun y => daysBeforeYear y ≤ n) (400 * n / 146097 + 2)
  let rest := n - daysBeforeYear year
  let month := lastUpTo (fun m => daysBeforeMonth year m ≤ rest) 12
  (ofParts year month (rest - daysBeforeMonth year month + 1)).toOption

/-- The number of a month, counted from the first of year 0. -/
def monthIndex (d : Date) : Int :=
  d.year * 12 + (d.month - 1)

/-- The date moved by whole months; its day is at most the last of the new month. -/
def addMonths (d : Date) (months : Int) : Except Fault Date :=
  let index := d.monthIndex + months
  let year := Int.fdiv index 12
  let month := (Int.fmod index 12).toNat + 1
  if 1 ≤ year ∧ year ≤ 9999 then
    ofParts year.toNat month (min d.day (daysInMonth year.toNat month))
  else .error (.ofYear year)

/-- Whether two characters are the digits of a month. -/
def isMonthText (a b : Char) : Bool :=
  (a == '1' && '0' ≤ b && b ≤ '2') || (a == '0' && '1' ≤ b && b ≤ '9')

/-- Whether two characters are the digits of a day. -/
def isDayText (a b : Char) : Bool :=
  (a == '3' && '0' ≤ b && b ≤ '1') || ('1' ≤ a && a ≤ '2' && Text.isDigit b) ||
    (a == '0' && '1' ≤ b && b ≤ '9')

/-- Whether the text has the shape of a date: four, two and two digits with hyphens between. -/
def looksLikeDate : List Char → Bool
  | [y₁, y₂, y₃, y₄, h₁, m₁, m₂, h₂, d₁, d₂] =>
    [y₁, y₂, y₃, y₄, m₁, m₂, d₁, d₂].all Text.isDigit && h₁ == '-' && h₂ == '-'
  | _ => false

/-- Whether the text has the shape of a date, with or without a line feed after it. -/
def looksLikeLine (cs : List Char) : Bool :=
  looksLikeDate cs || (cs.getLast? == some '\n' && looksLikeDate cs.dropLast)

/-- The date that a text writes. -/
def parse (s : String) : Except Fault Date :=
  if looksLikeLine s.toList then
    match s.toList with
    | [y₁, y₂, y₃, y₄, _, m₁, m₂, _, d₁, d₂] =>
      if isMonthText m₁ m₂ && isDayText d₁ d₂ then
        ofParts (Text.number [y₁, y₂, y₃, y₄]) (Text.number [m₁, m₂]) (Text.number [d₁, d₂])
      else .error .badDigits
    | _ => .error .badDigits
  else .error (.notADate s)

end Date

/-- The names of the months, from the first. -/
def monthNames : List String :=
  ["January", "February", "March", "April", "May", "June", "July", "August", "September",
    "October", "November", "December"]

/-- The label of a month, such as `January 2024`. -/
def monthLabel (year month : Nat) : String :=
  monthNames.getD (month - 1) "" ++ s!" {year}"

/--
The label of any numbers: month 0 has no name, and negative months count back from December.
There is none for other months.
-/
def monthLabelAt? (year month : Int) : Option String :=
  let names := "" :: monthNames
  let i := if month < 0 then month + names.length else month
  if i < 0 then none else names[i.toNat]?.map fun name => s!"{name} {year}"

end Worklog
