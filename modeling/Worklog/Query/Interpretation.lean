import Worklog.Clause.Parser
import Worklog.Field.Registry
import Worklog.Query.Basic
import Worklog.Token.Lexer

/-!
# From clauses to a query

Interpretation gives clauses their meaning: it looks up fields and columns, reads literals as the
fields require, and checks what the grammar cannot. Conditions add up over several WHERE clauses;
of every other clause the last one counts. A chart may be chosen only for a view that shows one.
-/

namespace Worklog

/-- The integer that a literal writes. -/
def readInteger (raw : String) : Except Failure Value :=
  match Decimal.Numeral.integer raw with
  | .ok n => .ok (.int n)
  | .error .unreadable => .error (.unreadableInteger raw)
  | .error (.tooLong digits) => .error (.tooManyDigits digits)

/-- The real number that a literal writes. -/
def readReal (raw : String) : Except Failure Value :=
  match Decimal.Numeral.real? raw with
  | some x => .ok (.float x)
  | none => .error (.unreadableReal raw)

/-- The number that a literal writes: a real one if it has a point, else an integer. -/
def readNumber (raw : String) : Except Failure Value :=
  if '.' ∈ raw.toList then readReal raw else readInteger raw

namespace Literal

/-- An error at the literal. -/
def failure (l : Literal) (cause : Cause) : Failure :=
  .query (.located l.position cause)

/-- The value of a literal, read as the field requires. -/
def read (h : FieldHandler) (l : Literal) : Except Failure Value :=
  match h.rule.kind with
  | .number =>
    if l.kind = .number then readNumber l.raw
    else .error (l.failure (.numberExpected h.name l.raw))
  | .date =>
    if l.kind = .date then
      match Date.parse l.raw with
      | .ok d => .ok (.date d)
      | .error _ => .error (l.failure (.noSuchDay h.name l.raw))
    else .error (l.failure (.dateExpected h.name l.raw))
  | .text => .ok (.text l.raw)

/-- The value of a literal that the field's rule accepts. -/
def accepted (h : FieldHandler) (l : Literal) : Except Failure Value := do
  let v ← l.read h
  match h.rule.accept v with
  | .ok v => .ok v
  | .error cause => .error (l.failure cause)

end Literal

namespace Condition

/-- An error at the field of the condition. -/
def failure (c : Condition) (cause : Cause) : Failure :=
  .query (.located c.position cause)

/-- The test of a condition, with the values that its handler accepts. -/
def readTest (c : Condition) (h : FieldHandler) : Except Failure (Test Value) :=
  match c.test with
  | .compare op literal =>
    if h.accepts op then do
      let value ← literal.accepted h
      .ok (.compare op value)
    else .error (c.failure (.operatorRefused h.name op h.allowed))
  | .range low high =>
    if h.accepts .between then do
      let lowest ← low.accepted h
      let highest ← high.accepted h
      if highest.less? lowest = some true then
        .error (c.failure (.rangeReversed h.name low.raw high.raw))
      else .ok (.range lowest highest)
    else .error (c.failure (.rangeRefused h.name h.allowed))

/-- The predicate of a condition. -/
def read (registry : Registry) (c : Condition) : Except Failure Predicate :=
  match registry.get? c.field with
  | none => .error (c.failure (.unknownField c.field registry.names none))
  | some h => do
    let test ← c.readTest h
    .ok ⟨h.name, test⟩

end Condition

namespace ColumnItem

/-- An error at the column. -/
def failure (c : ColumnItem) (cause : Cause) : Failure :=
  .query (.located c.position cause)

/-- The format of a column; an empty name asks for none. -/
def readFormat (name : Option String) : Except Failure (Option Format) :=
  match name with
  | none | some "" => .ok none
  | some s =>
    match Format.ofName? s with
    | some f => .ok (some f)
    | none => .error (.notAMember s "FormatKind")

/-- The column to show. -/
def read (c : ColumnItem) : Except Failure ShownColumn :=
  match c.field with
  | none => .error (c.failure (.titleAlone c.title))
  | some name =>
    match Column.ofName? name with
    | none => .error (c.failure (.unknownColumn name (Column.all.map Column.name)))
    | some column => do
      let format ← readFormat c.format
      .ok ⟨column, c.title, format⟩

end ColumnItem

namespace Query

/-- The member of a group that a name chooses. -/
def member {α : Type} (ofName? : String → Option α) (group value : String) : Except Failure α :=
  match ofName? value with
  | some a => .ok a
  | none => .error (.notAMember value group)

/-- The query with a choice made. -/
def choose (q : Query) (c : Choice) (value : String) : Except Failure Query :=
  match c with
  | .view => do
    let v ← member View.ofName? "ViewType" value
    .ok { q with view := some v }
  | .chart => do
    let v ← member Chart.ofName? "ChartType" value
    .ok { q with chart := some v }
  | .period => do
    let v ← member Period.ofName? "PeriodType" value
    .ok { q with period := some v }
  | .size => do
    let v ← member Size.ofName? "SizeType" value
    .ok { q with size := some v }

/-- The query with a clause taken into account. -/
def addClause (registry : Registry) (q : Query) (c : Clause) : Except Failure Query :=
  match c.body with
  | .conditions items => do
    let predicates ← items.mapM fun item => item.read registry
    .ok { q with conditions := some (q.predicates ++ predicates) }
  | .columns items => do
    let columns ← items.mapM ColumnItem.read
    .ok { q with columns := some columns }
  | .choice choice value => q.choose choice value
  | .unknown name => .error (.query ⟨.unknownClause name, none⟩)

/-- The position of the last clause that chooses a chart. -/
def lastChart? (clauses : List Clause) : Option Position :=
  (clauses.reverse.find? fun c =>
    match c.body with
    | .choice .chart _ => true
    | _ => false).map Clause.position

/-- Refuses a chart that the chosen view does not show. -/
def checkChart (q : Query) (clauses : List Clause) : Except Failure Query :=
  match q.view, lastChart? clauses with
  | some view, some position =>
    if view.showsChart then .ok q else .error (.query (.located position .chartWithoutView))
  | _, _ => .ok q

/-- The query that clauses mean. -/
def ofClauses (registry : Registry) (clauses : List Clause) : Except Failure Query := do
  let q ← clauses.foldlM (addClause registry) {}
  q.checkChart clauses

/-- The clauses of a text. -/
def parse (registry : Registry) (text : String) : Except Failure (List Clause) :=
  match Clause.parseTokens registry.names (Token.tokenize false text) with
  | .ok clauses => .ok clauses
  | .error e => .error (.query e)

/-- The query that a text writes. -/
def compile (registry : Registry) (text : String) : Except Failure Query := do
  let clauses ← parse registry text
  ofClauses registry clauses

/-- The errors of a text: none if it compiles, and at most one. -/
def validate (registry : Registry) (text : String) : Except Failure (List QueryError) :=
  match compile registry text with
  | .ok _ => .ok []
  | .error (.query e) => .ok [e]
  | .error failure => .error failure

/-- The query of a text, or else of a fallback together with the error of the text. -/
def compileOr (registry : Registry) (text fallback : String) :
    Except Failure (Query × Option QueryError) :=
  match compile registry text with
  | .ok q => .ok (q, none)
  | .error (.query e) => do
    let q ← compile registry fallback
    .ok (q, some e)
  | .error failure => .error failure

end Query

end Worklog
