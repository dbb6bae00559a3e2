import Worklog.Field.Registry
import Worklog.Filter
import Worklog.Query.Basic

/-!
# Matching entries

Every rule can judge an entry in memory. A test is first made ready (`Rule.matcher`), which fails
for an operator that thresholds do not have; the matcher then judges entries one by one, and fails
only when it is made to compare values of different kinds or to look for what is not a text.
-/

namespace Worklog

/-- The answer of a comparison, which fails between values of different kinds. -/
def comparable (answer : Option Bool) : Except Failure Bool :=
  match answer with
  | some b => .ok b
  | none => .error .kindMismatch

/-- Whether a value lies in a range; its upper end is looked at only above the lower one. -/
def Value.isWithin (v low high : Value) : Except Failure Bool := do
  if ← comparable (low.atMost? v) then comparable (v.atMost? high) else .ok false

/--
Makes a comparison with a threshold ready. The equality sign means "at least", as thresholds are
read: a utilization of 0.8 asks for days of 80 % and more.
-/
def Test.threshold (t : Test Value) : Except Failure (Value → Except Failure Bool) :=
  match t with
  | .range low high => .ok fun v => v.isWithin low high
  | .compare op low =>
    if op = .eq ∨ op = .ge then .ok fun v => comparable (low.atMost? v)
    else if op = .gt then .ok fun v => comparable (low.less? v)
    else if op = .lt then .ok fun v => comparable (v.less? low)
    else if op = .le then .ok fun v => comparable (v.atMost? low)
    else .error (.thresholdUnsupported op)

/-- Whether a text occurs in one of the texts of an entry. -/
def Value.isMentionedIn (v : Value) (texts : List (Option String)) : Except Failure Bool :=
  match v with
  | .text s => .ok (Text.mentions s texts)
  | _ => .error .notAText

namespace Rule

/-- The number that a threshold rule looks at. -/
def measured (r : Rule) (settings : Settings) (e : Entry) : Float :=
  match r with
  | .utilization => dailyUtilization e.hours settings.hoursPerWorkday
  | .value => rateOrZero e.rate
  | _ => e.hours

/-- Judges entries by a threshold. -/
def thresholdMatcher (r : Rule) (t : Test Value) (settings : Settings) :
    Except Failure (Entry → Except Failure Bool) := do
  let check ← t.threshold
  .ok fun e => check (.float (r.measured settings e))

/-- Makes a test of the rule ready to judge entries. -/
def matcher (r : Rule) (t : Test Value) (settings : Settings) :
    Except Failure (Entry → Except Failure Bool) :=
  match r with
  | .year => .ok fun e => .ok (t.value.same (.int e.date.year))
  | .month => .ok fun e => .ok (t.value.same (.int e.date.month))
  | .project => .ok fun e => t.value.isMentionedIn [e.project]
  | .date => .ok fun e => Value.isWithin (.date e.date) t.value (t.upper?.getD t.value)
  | .service => .ok fun e => t.value.isMentionedIn [e.project, e.notes]
  | .category => .ok fun e => t.value.isMentionedIn [e.category, e.notes]
  | .client => .ok fun e => t.value.isMentionedIn [e.client]
  | .utilization | .value | .hours => r.thresholdMatcher t settings

end Rule

/-- Makes a predicate ready to judge entries. -/
def Predicate.matcher (p : Predicate) (registry : Registry) (settings : Settings) :
    Except Failure (Entry → Except Failure Bool) := do
  let handler ← registry.get p.field
  handler.rule.matcher p.test settings

/-- Whether an entry satisfies all matchers; those after the first refusal are not asked. -/
def satisfiesAll (e : Entry) : List (Entry → Except Failure Bool) → Except Failure Bool
  | [] => .ok true
  | m :: ms => do if ← m e then satisfiesAll e ms else .ok false

/-- The entries that satisfy all matchers, in order. -/
def keepMatching (matchers : List (Entry → Except Failure Bool)) :
    List Entry → Except Failure (List Entry)
  | [] => .ok []
  | e :: es => do
    let kept ← satisfiesAll e matchers
    let rest ← keepMatching matchers es
    .ok (if kept then e :: rest else rest)

/-- The entries that satisfy all predicates; every predicate is made ready first. -/
def applyPredicates (registry : Registry) (settings : Settings) (predicates : List Predicate)
    (entries : List Entry) : Except Failure (List Entry) := do
  let matchers ← predicates.mapM fun p => p.matcher registry settings
  keepMatching matchers entries

end Worklog
