import Worklog.Field.Matcher
import Worklog.Plan
import Worklog.Query.Interpretation
import Worklog.Report
import Worklog.Source

/-!
# Sessions

A session answers queries from one source of entries. It holds the settings, the registry of
fields and the present day, all of which may change between queries. A source may also be out of
order, and then every query that reaches it fails.
-/

namespace Worklog

/-- What queries are answered with. -/
structure Session where
  source : Source
  settings : Settings
  registry : Registry
  today : Date
  /-- The message of a source that is out of order. -/
  outage : Option String := none

namespace Session

/-- The entries that the source has for a filter. -/
def fetch (s : Session) (f : Filter) : Except Failure (List Entry × Session) :=
  match s.outage with
  | some message => .error (.sourceFailed message)
  | none =>
    match s.source.query f with
    | (entries, source) => .ok (entries, { s with source })

/-- The same, where a failing source is reported as an error of the query. -/
def fetchForQuery (s : Session) (f : Filter) : Except Failure (List Entry × Session) :=
  match s.fetch f with
  | .error (.sourceFailed message) => .error (.query ⟨.sourceFailed message, none⟩)
  | result => result

/-- The report of entries that a plan's filter let through. -/
def report (s : Session) (plan : Plan) (entries : List Entry) : Except Failure Report := do
  let kept ← applyPredicates s.registry s.settings plan.residual entries
  .ok (Report.ofEntries s.settings plan.trendLength plan.today kept)

/-- Answers a query. What the source has looked up stays, even if the query fails afterwards. -/
def execute (s : Session) (q : Query) : Except Failure Report × Session :=
  match Plan.ofQuery s.registry q s.today with
  | .error failure => (.error failure, s)
  | .ok plan =>
    match s.fetchForQuery plan.filter with
    | .error failure => (.error failure, s)
    | .ok (entries, s) => (s.report plan entries, s)

/-- Compiles a text with the session's registry and answers it. -/
def run (s : Session) (text : String) : Except Failure Report × Session :=
  match Query.compile s.registry text with
  | .error failure => (.error failure, s)
  | .ok q => s.execute q

/-- The months in which there are entries, whatever the query. -/
def availableMonths (s : Session) : Except Failure (List Month) × Session :=
  match s.fetchForQuery {} with
  | .error failure => (.error failure, s)
  | .ok (entries, s) =>
    (.ok (Month.ofEntries s.settings (Sorting.sort Entry.isBefore entries)), s)

end Session

/-- The report of a text about entries on a day. -/
def runQuery (registry : Registry) (settings : Settings) (today : Date) (entries : List Entry)
    (text : String) : Except Failure Report :=
  (Session.run { source := .ofEntries entries, settings, registry, today } text).1

end Worklog
