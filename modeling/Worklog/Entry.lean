import Worklog.Checked
import Worklog.Figures

/-!
# Entries

An entry records hours worked on one day. It is read from JSON (`Entry.check`), and its hours are
never negative.
-/

namespace Worklog

/-- Hours worked on one day. -/
structure Entry where
  date : Date
  hours : Float
  rate : Option Float
  project : Option String
  client : Option String
  category : Option String
  notes : Option String
  hours_nonneg : 0.0 ≤ hours
  deriving DecidableEq

/-- A number that is not negative; a value that is not a number at all is refused. -/
def Checked.nonnegative (j : Json) : Checked { x : Float // 0.0 ≤ x } :=
  (Checked.number j).andThen fun x => if h : 0.0 ≤ x then .valid ⟨x, h⟩ else .issue .tooSmall

namespace Entry

/-- Reads an entry; members it does not know are ignored. -/
def check (j : Json) : Checked Entry :=
  (Checked.object j).andThen fun members =>
    (fun date hours rate project client category notes =>
        ⟨date, hours.1, rate, project, client, category, notes, hours.2⟩) <$>
      Checked.required members "date" Checked.date <*>
      Checked.required members "hours" Checked.nonnegative <*>
      Checked.optional members "rate" Checked.number <*>
      Checked.optional members "project" Checked.text <*>
      Checked.optional members "client" Checked.text <*>
      Checked.optional members "category" Checked.text <*>
      Checked.optional members "notes" Checked.text

/-- Reads a list of entries, up to the first one with issues. -/
def checkAll : List Json → Checked (List Entry)
  | [] => .valid []
  | j :: js => (check j).andThen fun entry => (checkAll js).andThen fun entries =>
    .valid (entry :: entries)

/-- The amount that the entry is invoiced at. -/
def invoiced (e : Entry) : Float :=
  invoicedAmount e.hours e.rate

/-- The texts by which entries of one day are ordered, the absent ones as empty. -/
def sortTexts (e : Entry) : List String :=
  [e.project.getD "", e.client.getD "", e.category.getD "", e.notes.getD ""]

/-- Whether a list of texts comes before another, the first difference deciding. -/
def textsBefore : List String → List String → Option Bool
  | a :: as, b :: bs => if a = b then textsBefore as bs else some (a < b)
  | _, _ => none

/--
Whether an entry comes before another: by date, then by its texts, its hours and its rate. The
first difference decides; rates that are not numbers differ and come before nothing.
-/
def isBefore (a b : Entry) : Bool :=
  if a.date ≠ b.date then a.date < b.date
  else
    match textsBefore a.sortTexts b.sortTexts with
    | some before => before
    | none =>
      if a.hours != b.hours then a.hours < b.hours
      else rateOrZero a.rate < rateOrZero b.rate

end Entry

end Worklog
