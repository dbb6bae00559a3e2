import Std.Time
import Worklog.CommandLine
import Worklog.Json.Reader

/-!
# The program

Reads the files, the environment and the clock, and hands them to the commands of
`Worklog.CommandLine`.
-/

namespace Worklog.CommandLine

/-- What the arguments ask for. -/
inductive Request where
  | help
  | check (file : String)
  | run (file entries : String) (table : Bool)

/-- The arguments of `run`: a query file, `--entries` with a file, and perhaps `--table`. -/
def runRequest? (file entries : Option String) (table : Bool) : List String → Option Request
  | [] => do
    let file ← file
    let entries ← entries
    pure (.run file entries table)
  | "--table" :: rest => runRequest? file entries true rest
  | "--entries" :: path :: rest => runRequest? file (some path) table rest
  | path :: rest => if file.isNone then runRequest? (some path) entries table rest else none

/-- What a list of arguments asks for. -/
def request? : List String → Option Request
  | [] => some .help
  | ["check", file] => some (.check file)
  | "run" :: rest => runRequest? none none false rest
  | "-v" :: rest | "--verbose" :: rest => request? rest
  | _ => none

/-- The present day. -/
def today : IO (Except Failure Date) := do
  let now ← Std.Time.PlainDateTime.now
  let day := now.date
  pure <|
    match Date.ofParts day.year.toInt.toNat day.month.val.toNat day.day.val.toNat with
    | .ok d => .ok d
    | .error fault => .error (.date fault)

/-- The environment variables that hold settings. -/
def environment : IO (List (String × String)) := do
  let values ← Settings.variableNames.mapM fun name => do
    let value ← IO.getEnv name
    pure (value.map fun v => (name, v))
  pure (values.filterMap id)

/-- Answers a request. -/
def answer (request : Request) : IO (Except Failure Outcome) := do
  match request with
  | .help => pure (.ok help)
  | .check file => do
    let query ← IO.FS.readFile file
    pure (check query)
  | .run file entries table => do
    let query ← IO.FS.readFile file
    let records ← IO.FS.readFile entries
    match Json.parse? records with
    | none => throw (IO.userError "the entries are not JSON, or have a lone surrogate")
    | some records => do
      let settings ← environment
      match ← today with
      | .ok day => pure (run query records settings table day)
      | .error failure => pure (.error failure)

end Worklog.CommandLine

open Worklog.CommandLine in
/-- Runs a command and exits with its status. -/
def main (args : List String) : IO UInt32 := do
  match request? args with
  | none => do
    IO.eprint usage
    pure 2
  | some request => do
    match ← answer request with
    | .ok outcome => do
      IO.print outcome.output
      IO.eprint outcome.errors
      pure outcome.status.toUInt32
    | .error failure => do
      IO.eprintln (failure.message?.getD "the input is not valid")
      pure 1
