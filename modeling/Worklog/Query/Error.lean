import Worklog.Text.Quoted
import Worklog.Token.Basic
import Worklog.Value

/-!
# What is wrong with a query

Everything that can be wrong with a query, or with answering it, is a `Cause`: the lexer's faults,
the parser's expectations, the meaning that a well-formed query lacks, and a source of entries
that fails. A `QueryError` is a cause with the position it concerns. Codes, categories, messages
and suggestions are all functions of the cause.
-/

namespace Worklog

/-- Why a query is refused. Where the parser found something else, `found` describes it. -/
inductive Cause where
  | token (fault : Token.Fault)
  | unknownKeyword (found : String)
  | clauseExpected (found : String)
  /-- Conditions were joined by a word for "or". -/
  | disjunction
  | conditionsBroken (found : String)
  | fieldExpected (after : Keyword) (found : String)
  | operatorExpected (field found : String)
  | rangeBroken (found : String)
  /-- The value after an operator or a word is missing; `after` is how that is written. -/
  | valueExpected (after found : String)
  | columnsBroken (found : String)
  | columnExpected (found : String)
  | unknownFormat (found : String)
  | titleExpected (found : String)
  | choiceExpected (choice : Choice)
  | unknownChoice (choice : Choice) (found : String)
  /-- A field that no handler understands; when it was parsed, the closest known one is offered. -/
  | unknownField (field : String) (fields : List String) (closest : Option String)
  | operatorRefused (field : String) (operator : Operator) (allowed : List Operator)
  | rangeRefused (field : String) (allowed : List Operator)
  | numberExpected (field raw : String)
  | dateExpected (field raw : String)
  | noSuchDay (field raw : String)
  | notWhole (field : String) (value : Value)
  | outOfBounds (field : String) (low high : Int) (value : Value)
  | negative (field : String) (value : Value)
  | empty (field : String)
  | rangeReversed (field low high : String)
  | titleAlone (title : Option String)
  | unknownColumn (column : String) (columns : List String)
  | chartWithoutView
  | unknownClause (name : String)
  | sourceFailed (message : String)
  deriving DecidableEq

namespace Cause

/-- The stage of answering a query at which it fails. -/
inductive Stage where
  | parsing
  /-- A field that is unknown is found while parsing, but concerns the meaning. -/
  | resolving
  | meaning
  | execution
  deriving DecidableEq

/-- The stage at which a cause arises. -/
def stage : Cause → Stage
  | .token _ | .unknownKeyword _ | .clauseExpected _ | .disjunction | .conditionsBroken _
  | .fieldExpected _ _ | .operatorExpected _ _ | .rangeBroken _ | .valueExpected _ _
  | .columnsBroken _ | .columnExpected _ | .unknownFormat _ | .titleExpected _
  | .choiceExpected _ | .unknownChoice _ _ => .parsing
  | .unknownField _ _ _ => .resolving
  | .operatorRefused _ _ _ | .rangeRefused _ _ | .numberExpected _ _ | .dateExpected _ _
  | .noSuchDay _ _ | .notWhole _ _ | .outOfBounds _ _ _ _ | .negative _ _ | .empty _
  | .rangeReversed _ _ _ | .titleAlone _ | .unknownColumn _ _ | .chartWithoutView
  | .unknownClause _ => .meaning
  | .sourceFailed _ => .execution

/-- The category of a stage in answers. -/
def Stage.category : Stage → String
  | .parsing => "syntax"
  | .resolving | .meaning => "semantic"
  | .execution => "execution"

/-- The code of a cause, by which programs tell causes apart. -/
def code : Cause → String
  | .token (.strayCharacter _) => "QL_001"
  | .token (.openQuote _) => "QL_002"
  | .unknownKeyword _ => "QL_003"
  | .operatorExpected _ _ => "QL_004"
  | .valueExpected _ _ | .titleExpected _ | .choiceExpected _ => "QL_005"
  | .unknownFormat _ | .unknownChoice _ _ => "QL_006"
  | .clauseExpected _ | .conditionsBroken _ | .fieldExpected _ _ | .rangeBroken _
  | .columnsBroken _ | .columnExpected _ => "QL_007"
  | .disjunction => "QL_008"
  | .unknownField _ _ _ => "QL_020"
  | .numberExpected _ _ | .dateExpected _ _ | .noSuchDay _ _ | .notWhole _ _
  | .outOfBounds _ _ _ _ | .negative _ _ | .empty _ | .rangeReversed _ _ _
  | .unknownClause _ => "QL_021"
  | .operatorRefused _ _ _ | .rangeRefused _ _ => "QL_022"
  | .unknownColumn _ _ => "QL_023"
  | .titleAlone _ | .chartWithoutView => "QL_024"
  | .sourceFailed _ => "QL_040"

/-- Items in a row, with commas between. -/
def listed (items : List String) : String :=
  ", ".intercalate items

/-- The words that begin a clause, in a row. -/
def clauseWords : String :=
  listed (Keyword.clauseWords.map Keyword.spelling)

/-- The wording of a cause. -/
def message : Cause → String
  | .token fault => fault.message
  | .unknownKeyword found => s!"Unknown keyword {found}: expected one of {clauseWords}"
  | .clauseExpected found => s!"Unexpected {found}: expected one of {clauseWords}"
  | .disjunction => "OR is not supported: WHERE predicates can only be combined with AND"
  | .conditionsBroken found => s!"Expected AND or a new clause after predicate, got {found}"
  | .fieldExpected after found => s!"Expected field name after {after.spelling}, got {found}"
  | .operatorExpected field found => s!"Expected operator after '{field}', got {found}"
  | .rangeBroken found => s!"Expected AND in BETWEEN range, got {found}"
  | .valueExpected after found => s!"Expected value after {after}, got {found}"
  | .columnsBroken found => s!"Expected ',' or a new clause after column, got {found}"
  | .columnExpected found => s!"Expected column name, got {found}"
  | .unknownFormat found =>
    s!"Invalid format: {found}. Valid formats: {listed (Format.all.map Format.name)}"
  | .titleExpected found => s!"Expected quoted alias after AS, got {found}"
  | .choiceExpected choice =>
    s!"Expected {choice.label} after {choice.word}. Valid values: {listed choice.values}"
  | .unknownChoice choice found =>
    s!"Invalid {choice.label}: {found}. Valid values: {listed choice.values}"
  | .unknownField field fields _ => s!"Unknown field '{field}'. Valid fields: {listed fields}"
  | .operatorRefused field operator _ =>
    s!"Operator '{operator.symbol}' is not supported for field '{field}'"
  | .rangeRefused field _ => s!"BETWEEN is not supported for field '{field}'"
  | .numberExpected field raw => s!"Field '{field}' expects a number: {Text.quoted raw}"
  | .dateExpected field raw =>
    s!"Field '{field}' expects a date literal (\"YYYY-MM-DD\"): {Text.quoted raw}"
  | .noSuchDay field raw => s!"Field '{field}' got an invalid calendar date: {Text.quoted raw}"
  | .notWhole field value => s!"{field} must be a whole number, got {value.describe}"
  | .outOfBounds field low high value =>
    s!"{field} must be between {low} and {high}, got {value.describe}"
  | .negative field value => s!"{field} cannot be negative, got {value.describe}"
  | .empty field => s!"{field} cannot be empty"
  | .rangeReversed field low high => s!"Range for '{field}' is reversed: {low} is after {high}"
  | .titleAlone title =>
    let name := title.getD "None"
    s!"Alias \"{name}\" has no column to name"
  | .unknownColumn column columns =>
    s!"Unknown SHOW column '{column}'. Valid columns: {listed columns}"
  | .chartWithoutView => "CHART clause can only be used with VIEW chart or VIEW full"
  | .unknownClause name => s!"Unknown clause type: {name}"
  | .sourceFailed message => s!"Data source query failed: {message}"

/-- Advice that goes with a cause. -/
def suggestion? : Cause → Option String
  | .operatorExpected _ _ => some "Use '=' or BETWEEN ... AND ..."
  | .unknownField _ _ closest => closest.map fun name => s!"Did you mean '{name}'?"
  | .operatorRefused _ _ allowed | .rangeRefused _ allowed =>
    some s!"Allowed operators: {listed (allowed.map Operator.symbol)}"
  | _ => none

end Cause

/-- A cause with the position it concerns, if it concerns one. -/
structure QueryError where
  cause : Cause
  position : Option Position
  deriving DecidableEq

namespace QueryError

/-- An error at a position. -/
def located (position : Position) (cause : Cause) : QueryError :=
  ⟨cause, some position⟩

/-- The message with the position. -/
def message (e : QueryError) : String :=
  match e.position with
  | some p => s!"{e.cause.message} (line {p.line}, column {p.column})"
  | none => e.cause.message

/-- The message with the position, and the advice on a line of its own. -/
def userMessage (e : QueryError) : String :=
  match e.cause.suggestion? with
  | some suggestion => s!"{e.message}\n{suggestion}"
  | none => e.message

end QueryError

end Worklog
