import Worklog.Date
import Worklog.Decimal.Layout

/-!
# Values

What a condition compares with: a number, a text or a date. Integers of any size and binary64
numbers are compared by their exact values. Values of different kinds are never equal and have no
order. A value may be absent; then it is equal to an absent one only, and has no order.
-/

namespace Worklog

/-- A value in a condition. -/
inductive Value where
  | int (n : Int)
  | float (x : Float)
  | text (s : String)
  | date (d : Date)
  | absent
  deriving DecidableEq

namespace Value

/-- The text of a value in messages and plans. -/
def describe : Value → String
  | .int n => toString n
  | .float x => Decimal.plain.write x
  | .text s => s
  | .date d => d.iso
  | .absent => "None"

/-- How two values lie to each other. -/
inductive Relation where
  | less
  | equal
  | greater
  /-- One of two numbers is not a number. -/
  | unordered
  deriving DecidableEq

/-- The relation that an order names. -/
def Relation.ofOrdering : Ordering → Relation
  | .lt => .less
  | .eq => .equal
  | .gt => .greater

/-- How two binary64 numbers lie to each other. -/
def relateFloats (x y : Float) : Relation :=
  if x < y then .less else if x == y then .equal else if x > y then .greater else .unordered

/-- How two values lie to each other, or `none` if they are of different kinds. -/
def relate? (a b : Value) : Option Relation :=
  match a, b with
  | .int m, .int n => some (.ofOrdering (compare m n))
  | .float x, .float y => some (relateFloats x y)
  | .float x, .int n =>
    some (match Decimal.compareWithInt? x n with
      | some o => .ofOrdering o
      | none => .unordered)
  | .int n, .float x =>
    some (match Decimal.compareWithInt? x n with
      | some o => .ofOrdering o.swap
      | none => .unordered)
  | .text s, .text t => some (if s < t then .less else if s = t then .equal else .greater)
  | .date d, .date e => some (if d < e then .less else if d = e then .equal else .greater)
  | _, _ => none

/-- Whether two values are equal; values of different kinds are not. -/
def same (a b : Value) : Bool :=
  match a, b with
  | .absent, .absent => true
  | _, _ => a.relate? b == some .equal

/-- Whether `a` is less than `b`, or `none` if they are of different kinds. -/
def less? (a b : Value) : Option Bool :=
  (a.relate? b).map (· == .less)

/-- Whether `a` is at most `b`, or `none` if they are of different kinds. -/
def atMost? (a b : Value) : Option Bool :=
  (a.relate? b).map fun r => r == .less || r == .equal

end Value

end Worklog
