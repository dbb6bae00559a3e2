import Worklog.Json.Writer
import Worklog.Session
import Worklog.Table

/-!
# The command line

`check` prints the normalized form of a query, or what is wrong with it; `run` answers it from a
list of entries and prints the report, or the table of its entries. What the commands print and
the status they exit with are computed here; reading files and the clock is left to `main`. Output
is encoded as UTF-8, which every text here can be, so that printing does not fail.
-/

namespace Worklog

/-- A value in JSON; a date is written as a text. -/
def Value.toJson : Value → Json
  | .int n => .int n
  | .float x => .float x
  | .text s => .string s
  | .date d => .string d.iso
  | .absent => .null

/-- The members of a predicate; only a range has an upper end. -/
def Predicate.toJson (p : Predicate) : Json :=
  .object <|
    [("field", .string p.field), ("operator", .string p.test.operator.symbol),
      ("value", p.test.value.toJson)] ++
      (match p.test.upper? with
        | some upper => [("upper", upper.toJson)]
        | none => [])

/-- The members of a column to show. -/
def ShownColumn.toJson (c : ShownColumn) : Json :=
  .object
    [("field", .string c.column.name), ("alias", Json.ofOption .string c.title),
      ("format", Json.ofOption (fun f => .string f.name) c.format)]

/-- The members of a query, with the defaults of what was not written. -/
def Query.toJson (q : Query) : Json :=
  .object
    [("where", Json.ofList Predicate.toJson q.predicates),
      ("show", Json.ofList ShownColumn.toJson q.shown),
      ("view", .string q.viewOrDefault.name), ("chart", .string q.chartOrDefault.name),
      ("period", .string q.periodOrDefault.name), ("size", .string q.sizeOrDefault.name),
      ("explicit", Json.ofList .string q.written)]

namespace CommandLine

/-- The status and the output of a command. -/
structure Outcome where
  status : Nat
  output : String := ""
  errors : String := ""
  deriving DecidableEq

/-- The text of a file with every end of line as a single line feed. -/
def unifyLines : List Char → List Char
  | [] => []
  | '\r' :: '\n' :: rest => '\n' :: unifyLines rest
  | '\r' :: rest => '\n' :: unifyLines rest
  | c :: rest => c :: unifyLines rest

/-- The query in a file. -/
def queryText (file : String) : String :=
  String.ofList (unifyLines file.toList)

/-- Reports an error of the query; other failures end the command. -/
def orReport (result : Except Failure String) : Except Failure Outcome :=
  match result with
  | .ok output => .ok { status := 0, output }
  | .error (.query e) => .ok { status := 1, errors := e.userMessage ++ "\n" }
  | .error failure => .error failure

/-- Prints the normalized form of a query. -/
def check (file : String) : Except Failure Outcome :=
  orReport do
    let q ← Query.compile .standard (queryText file)
    .ok (q.toJson.render .ascii ++ "\n")

/-- A row of a table, its cells with tabs between. -/
def line (cells : List String) : String :=
  "\t".intercalate cells ++ "\n"

/-- A table, a row to a line. -/
def tableText (t : Table) : String :=
  String.join ((t.headers :: t.rows).map line)

/-- The records of a file of entries; where texts stand, none of them is a record. -/
def recordsOf (file : Json) : Except Failure (List Json) :=
  match file with
  | .array items => .ok items
  | .object members => .ok (members.map fun m => .string m.1)
  | .string s => .ok (s.toList.map fun c => .string (String.singleton c))
  | _ => .error .kindMismatch

/-- Reads entries from JSON. -/
def readEntries (file : Json) : Except Failure (List Entry) := do
  let records ← recordsOf file
  (Entry.checkAll records).toExcept

/-- Answers a query and prints the report, or the table of its entries. -/
def run (file : String) (records : Json) (environment : List (String × String)) (table : Bool)
    (today : Date) : Except Failure Outcome := do
  let text := queryText file
  let entries ← readEntries records
  let settings ← (Settings.ofEnvironment environment).toExcept
  orReport do
    let report ← runQuery .standard settings today entries text
    if table then
      let q ← Query.compile .standard text
      let t ← Table.ofEntries settings q.shown report.entries
      .ok (tableText t)
    else .ok ((report.toJson .float).render .report ++ "\n")

/-- How the commands are used. -/
def usage : String :=
  "usage: timesheet_query [-h] [-v] \x7bcheck,run\x7d ...\n\n" ++
  "Compile and run timesheet queries\n\n" ++
  "positional arguments:\n" ++
  "  \x7bcheck,run\x7d    Command\n" ++
  "    check        Validate a query file\n" ++
  "    run          Execute a query file\n\n" ++
  "options:\n" ++
  "  -h, --help     show this help message and exit\n" ++
  "  -v, --verbose  Log pipeline detail to stderr\n"

/-- Prints how the commands are used. -/
def help : Outcome := { status := 2, output := usage }

end CommandLine

end Worklog
