import Worklog.Field.Rule
import Worklog.Sorting
import Worklog.Text.Lower

/-!
# Field handlers

A handler makes a rule available under a name. It settles which operators a query may use, whether
it may ask for a range, whether a test of the field restricts time, and whether tests are pushed
down to the source of entries (`FieldHandler.pushed`), which only some rules allow. How values are
checked, matched and pushed down is the rule's affair, so handlers bring no such functions of their
own: what is said of all handlers is said of those of the ten rules.
-/

namespace Worklog

/-- One of the ten rules, under a name of any choice. -/
structure FieldHandler where
  name : String
  rule : Rule
  operators : List Operator
  rangeCapable : Bool
  temporal : Bool
  pushed : Bool
  pushed_pushable : pushed = true → rule.isPushable = true
  deriving DecidableEq

namespace FieldHandler

/-- The key under which a handler is found. -/
def key (h : FieldHandler) : String :=
  Text.lower h.name

/-- Whether a query may use the operator. -/
def accepts (h : FieldHandler) (op : Operator) : Bool :=
  if op = .between then h.rangeCapable else op ∈ h.operators

/-- Whether an operator comes before another, by symbol. -/
def symbolBefore (a b : Operator) : Bool :=
  decide (a.symbol < b.symbol)

/-- The operators that a query may use, sorted, with that of ranges last. -/
def allowed (h : FieldHandler) : List Operator :=
  Sorting.sort symbolBefore h.operators.eraseDups ++
    (if h.rangeCapable then [.between] else [])

/-- The operators of fields that are compared with a threshold. -/
def thresholds : List Operator :=
  [.eq, .gt, .ge, .lt, .le]

/-- The handler of a rule as the language defines it. -/
def standard (r : Rule) : FieldHandler :=
  let threshold := r = .utilization ∨ r = .value ∨ r = .hours
  { name := r.name
    rule := r
    operators := if threshold then thresholds else [.eq]
    rangeCapable := decide (threshold ∨ r = .date)
    temporal := decide (r = .year ∨ r = .month ∨ r = .date)
    pushed := r.isPushable
    pushed_pushable := id }

/-- What a changed copy of a handler differs in. -/
structure Changes where
  name : Option String := none
  operators : Option (List Operator) := none
  rangeCapable : Option Bool := none
  temporal : Option Bool := none
  pushed : Option Bool := none

/-- A changed copy of a handler. -/
def change (h : FieldHandler) (c : Changes) : Except Failure FieldHandler :=
  let name := c.name.getD h.name
  let pushed := c.pushed.getD h.pushed
  if ok : pushed = true → h.rule.isPushable = true then
    .ok
      { name
        rule := h.rule
        operators := c.operators.getD h.operators
        rangeCapable := c.rangeCapable.getD h.rangeCapable
        temporal := c.temporal.getD h.temporal
        pushed
        pushed_pushable := ok }
  else .error (.notPushable name)

end FieldHandler

end Worklog
