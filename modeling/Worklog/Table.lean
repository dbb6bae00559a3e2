import Worklog.Amount
import Worklog.Failure
import Worklog.Query.Basic

/-!
# Tables

A table shows entries, one to a row, in the columns that a query asks for. Each cell is written as
the column's format says, or else as the kind of the column's values requires. An absent value
leaves its cell empty.
-/

namespace Worklog

/-- Headers and rows of text. -/
structure Table where
  headers : List String
  rows : List (List String)
  deriving DecidableEq

namespace Table

/-- What is shown where a date is asked for as a number: the pattern of the number itself. -/
def numberPattern : String := ",.2f"

/-- An integer as a number that can have places. -/
def placeable (n : Int) : Except Failure Float :=
  if (Decimal.ofInt n).isInf then .error .tooLargeToFormat else .ok (Decimal.ofInt n)

/-- An amount of money. -/
def currencyCell (settings : Settings) (v : Value) : Except Failure String :=
  match v with
  | .int n => do
    let x ← placeable n
    .ok (showCurrency settings.currencySymbol x)
  | .float x => .ok (showCurrency settings.currencySymbol x)
  | .date _ => .ok (settings.currencySymbol ++ numberPattern)
  | .text _ => .error .notFormattable
  | .absent => .ok notAvailable

/-- A percentage. -/
def percentCell (v : Value) : Except Failure String :=
  match v with
  | .int n => do
    let x ← placeable (n * 100)
    .ok (Decimal.fixed false 1 x ++ "%")
  | .float x => .ok (showPercent x)
  | .date _ => .error .kindMismatch
  | .text _ => .error .notFormattable
  | .absent => .ok notAvailable

/-- Hours. -/
def hoursCell (v : Value) : Except Failure String :=
  match v with
  | .int n => do
    let x ← placeable n
    .ok (showHours x)
  | .float x => .ok (showHours x)
  | .date _ => .ok numberPattern
  | .text _ => .error .notFormattable
  | .absent => .ok notAvailable

/-- A value as text. -/
def textCell (v : Value) : String :=
  match v with
  | .float x => showNumber x
  | _ => v.describe

/-- A day. -/
def dateCell (v : Value) : Except Failure String :=
  match v with
  | .date d => .ok d.iso
  | _ => .error .notADay

/-- The text of a value that is present. -/
def presentCell (settings : Settings) (kind : Column.Kind) (format : Option Format) (v : Value) :
    Except Failure String :=
  match format with
  | some .currency | some .money => currencyCell settings v
  | some .percent => percentCell v
  | none =>
    match kind with
    | .date => dateCell v
    | .hours => hoursCell v
    | .currency => currencyCell settings v
    | .percent => percentCell v
    | .text => .ok (textCell v)

/-- The text of a cell; that of an absent value is empty. -/
def cell (settings : Settings) (kind : Column.Kind) (format : Option Format) (v : Option Value) :
    Except Failure String :=
  match v with
  | none | some .absent => .ok ""
  | some v => presentCell settings kind format v

/-- The columns of a table when a query asks for none. -/
def defaultColumns : List ShownColumn :=
  [{ column := .date }, { column := .project }, { column := .hours }, { column := .invoiced }]

/-- The header of a column: its title, unless that is absent or empty. -/
def header (c : ShownColumn) : String :=
  match c.title with
  | none | some "" => c.column.label
  | some title => title

/-- The row of an entry. -/
def row (settings : Settings) (columns : List ShownColumn) (e : Entry) :
    Except Failure (List String) :=
  columns.mapM fun c => cell settings c.column.kind c.format (c.column.value? settings e)

/-- The table of entries in the given columns, or in the default ones. -/
def ofEntries (settings : Settings) (columns : List ShownColumn) (entries : List Entry) :
    Except Failure Table := do
  let columns := if columns.isEmpty then defaultColumns else columns
  let rows ← entries.mapM (row settings columns)
  .ok ⟨columns.map header, rows⟩

end Table

end Worklog
