import Worklog.Field.Pushdown

/-!
# Retrieval plans

A plan says how a query is answered on a given day: the filter for the source of entries, the
predicates that are left to judge in memory, and how many months the trend keeps. A predicate that
cannot be pushed down, or conflicts with one that has been, is left. The period restricts the
filter only when no predicate restricts time.
-/

namespace Worklog

/-- What a period adds to a filter. -/
structure Window where
  year : Option Nat := none
  range : Option DateRange := none
  deriving DecidableEq

/-- The window of a period on a day. -/
def Period.window (p : Period) (today : Date) : Except Failure Window :=
  match p with
  | .currentYear => .ok { year := some today.year }
  | _ =>
    match p.rollingMonths? with
    | none => .ok {}
    | some n =>
      match today.addMonths (-n) with
      | .error fault => .error (.date fault)
      | .ok start => do
        let range ← (DateRange.between start today).toExcept
        .ok { range := some range }

/-- The number of months that the trend keeps: those of a rolling period, or six if compact. -/
def Query.trendLength? (q : Query) : Option Nat :=
  match q.periodOrDefault.rollingMonths? with
  | some n => some n
  | none => if q.sizeOrDefault = .compact then some 6 else none

/-- How a query is answered on a given day. -/
structure Plan where
  filter : Filter
  /-- The predicates that are left to judge in memory. -/
  residual : List Predicate
  window : Window
  trendLength : Option Nat
  today : Date
  deriving DecidableEq

namespace Plan

/-- The predicates seen so far: those pushed down, those left, and whether one restricts time. -/
structure Sorted where
  draft : FilterDraft := {}
  residual : List Predicate := []
  temporal : Bool := false

/-- Pushes a predicate down if its handler says so and the draft has room for it. -/
def sortPredicate (registry : Registry) (s : Sorted) (p : Predicate) : Except Failure Sorted := do
  let handler ← registry.get p.field
  let draft ← if handler.pushed then handler.rule.push p.test s.draft else .ok none
  let temporal := s.temporal || handler.temporal
  match draft with
  | some draft => .ok { s with draft, temporal }
  | none => .ok { s with residual := s.residual ++ [p], temporal }

/-- The window that a query adds to its filter, which is empty if a predicate restricts time. -/
def windowFor (q : Query) (temporal : Bool) (today : Date) : Except Failure Window :=
  if temporal then .ok {} else q.periodOrDefault.window today

/-- A draft restricted to a window, whose parts replace those of the draft. -/
def restrict (d : FilterDraft) (w : Window) : FilterDraft :=
  { d with
    year := (w.year.map fun y => Value.int y).or d.year
    range := w.range.or d.range }

/-- The plan of a query on a day. -/
def ofQuery (registry : Registry) (q : Query) (today : Date) : Except Failure Plan := do
  let sorted ← q.predicates.foldlM (sortPredicate registry) {}
  let window ← windowFor q sorted.temporal today
  let filter ← (restrict sorted.draft window).finish.toExcept
  .ok
    { filter
      residual := sorted.residual
      window
      trendLength := q.trendLength?
      today }

/-- A part of an explanation, which is written only if it is set. -/
def explainedPart {α : Type} (key : String) (text : α → String) (part : Option α) : List String :=
  match part with
  | some a => [s!"{key}={text a}"]
  | none => []

/-- The parts of a list, or a word for none. -/
def orNone (parts : List String) : String :=
  if parts.isEmpty then "none" else ", ".intercalate parts

/-- The plan in one line. -/
def explain (p : Plan) : String :=
  let pushed :=
    explainedPart "year" (fun n : Int => toString n) p.filter.year ++
      explainedPart "month" (fun n : Int => toString n) p.filter.month ++
      explainedPart "project_filter" id p.filter.project ++
      explainedPart "date_range" (fun r : DateRange => s!"{r.start.iso}..{r.stop.iso}")
        p.filter.range
  let residual := p.residual.map Predicate.describe
  let trend :=
    match p.trendLength with
    | some n => s!"last {n}"
    | none => "all"
  s!"pushdown: {orNone pushed} | residual: {orNone residual} | trend: {trend}"

end Plan

end Worklog
