import Worklog.HashOrder
import Worklog.Settings
import Worklog.Sorting

/-!
# Rollups

Entries are summed up by month (`Month.ofEntries`), as series for a trend (`Trend.ofMonths`), and
as a whole (`Summary.ofEntries`).
-/

namespace Worklog

/-- The sums of one month. -/
structure Month where
  year : Nat
  month : Nat
  label : String
  hours : Float
  invoiced : Float
  utilization : Float
  rate : Float
  /-- The hours of this month and of all before it. -/
  cumulativeHours : Float
  budget : Option Float
  tracked : BudgetFigures
  deriving DecidableEq

/-- A year and a month, ordered by time. -/
structure MonthKey where
  year : Nat
  month : Nat
  deriving DecidableEq

namespace MonthKey

/-- The month of a date. -/
def ofDate (d : Date) : MonthKey := ⟨d.year, d.month⟩

/-- Whether a month is before another. -/
def isBefore (a b : MonthKey) : Bool :=
  a.year < b.year || (a.year == b.year && a.month < b.month)

/-- The months of entries, each once, in the order in which they occur. -/
def ofEntries (entries : List Entry) : List MonthKey :=
  (entries.map fun e => ofDate e.date).eraseDups

/-- The hash of a month: that of its year and its number in the year. -/
def hash (k : MonthKey) : UInt64 :=
  HashOrder.ofWords [UInt64.ofNat k.year, UInt64.ofNat k.month]

/-- The months of entries, each once, in the order of a hashed set. -/
def setOfEntries (entries : List Entry) : List MonthKey :=
  HashOrder.arrange hash (ofEntries entries)

theorem setOfEntries_perm (entries : List Entry) :
    (setOfEntries entries).Perm (ofEntries entries) :=
  HashOrder.arrange_perm hash _

/-- The hours of a month in which every working day is worked. -/
def target (k : MonthKey) (hoursPerWorkday : Float) : Float :=
  targetHours (Date.workingDays k.year k.month) hoursPerWorkday

end MonthKey

/-- The entries of a month. -/
def inMonth (k : MonthKey) (entries : List Entry) : List Entry :=
  entries.filter fun e => MonthKey.ofDate e.date = k

/-- The sum of the hours of entries. -/
def totalHours (entries : List Entry) : Float :=
  total (entries.map Entry.hours)

/-- The sum of the invoiced amounts of entries. -/
def totalInvoiced (entries : List Entry) : Float :=
  total (entries.map Entry.invoiced)

namespace Month

/-- The sums of a month; `before` are the hours of all earlier months. -/
def ofBucket (settings : Settings) (before : Float) (k : MonthKey) (entries : List Entry) :
    Month :=
  let hours := totalHours entries
  let invoiced := totalInvoiced entries
  let cumulative := before + hours
  { year := k.year
    month := k.month
    label := monthLabel k.year k.month
    hours
    invoiced
    utilization := ratio hours (k.target settings.hoursPerWorkday)
    rate := ratio invoiced hours
    cumulativeHours := cumulative
    budget := settings.budget
    tracked := budgetFigures cumulative settings.budget }

/-- The sums of the months with the given keys, one after the other. -/
def accumulate (settings : Settings) (entries : List Entry) (before : Float) :
    List MonthKey → List Month
  | [] => []
  | k :: ks =>
    let m := ofBucket settings before k (inMonth k entries)
    m :: accumulate settings entries m.cumulativeHours ks

/-- The sums of all months in which there are entries, in ascending order. -/
def ofEntries (settings : Settings) (entries : List Entry) : List Month :=
  accumulate settings entries 0.0
    (Sorting.sort MonthKey.isBefore (MonthKey.ofEntries entries))

/-- The key of a month. -/
def key (m : Month) : MonthKey := ⟨m.year, m.month⟩

/-- Whether a month comes before another. -/
def isBefore (a b : Month) : Bool :=
  a.key.isBefore b.key

end Month

/-- Series of numbers with one element per month, oldest first. -/
structure Trend where
  labels : List String
  hours : List Float
  utilization : List Float
  invoiced : List Float
  deriving DecidableEq

/--
The last elements of a list: as many as the limit says, or all if there is none or it is zero. A
negative limit drops as many from the front.
-/
def lastOf {α : Type} (limit : Option Int) (as : List α) : List α :=
  match limit with
  | none => as
  | some n =>
    if n = 0 then as
    else if 0 < n then as.drop (as.length - n.toNat)
    else as.drop n.natAbs

/-- The trend of months, of which the last ones are kept. -/
def Trend.ofMonths (limit : Option Int) (months : List Month) : Trend :=
  let kept := lastOf limit (Sorting.sort Month.isBefore months)
  { labels := kept.map Month.label
    hours := kept.map Month.hours
    utilization := kept.map Month.utilization
    invoiced := kept.map Month.invoiced }

/-- The sums over a set of entries. -/
structure Summary where
  totalHours : Float
  totalInvoiced : Float
  utilization : Float
  budget : Option Float
  tracked : BudgetFigures
  deriving DecidableEq

/-- The target hours of months together, added up in their order. -/
def targetOfMonths (keys : List MonthKey) (hoursPerWorkday : Float) : Float :=
  total (keys.map (·.target hoursPerWorkday))

/-- The sums over entries; the target counts every month in which there is one, once. -/
def Summary.ofEntries (settings : Settings) (entries : List Entry) : Summary :=
  let hours := Worklog.totalHours entries
  { totalHours := hours
    totalInvoiced := Worklog.totalInvoiced entries
    utilization :=
      ratio hours (targetOfMonths (MonthKey.setOfEntries entries) settings.hoursPerWorkday)
    budget := settings.budget
    tracked := budgetFigures hours settings.budget }

end Worklog
