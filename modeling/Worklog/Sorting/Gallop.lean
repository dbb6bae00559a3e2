/-!
# Searching a run

The place of an element in a run is found by bisection, or by galloping: the run is looked at ever
farther from its start until the place has been passed, and only then is the last stretch
bisected. Both count the elements at the start that satisfy a condition, provided that all those
that satisfy it come first.
-/

namespace Worklog.Sorting

variable {α : Type}

/-- The end of the list from which a run is read. -/
inductive Direction where
  | forward
  | backward
  deriving DecidableEq

/--
The position in the middle of the positions from `low` to below `high`. Of two, it is the one that
stands later in the list, whichever end the positions are counted from.
-/
def Direction.middle (d : Direction) (low high : Nat) : Nat :=
  match d with
  | .forward => low + (high - low) / 2
  | .backward => high - 1 - (high - low) / 2

theorem Direction.low_le_middle (d : Direction) {low high : Nat} (h : low < high) :
    low ≤ d.middle low high := by
  cases d <;> simp only [middle] <;> omega

theorem Direction.middle_lt_high (d : Direction) {low high : Nat} (h : low < high) :
    d.middle low high < high := by
  cases d <;> simp only [middle] <;> omega

/-- The first position from `low` to below `high` at which a condition fails, by bisection. -/
def bisect (d : Direction) (holds : Nat → Bool) (low high : Nat) : Nat :=
  if h : low < high then
    if holds (d.middle low high) then bisect d holds (d.middle low high + 1) high
    else bisect d holds low (d.middle low high)
  else low
termination_by high - low
decreasing_by
  · have := d.low_le_middle h
    omega
  · have := d.middle_lt_high h
    omega

/--
The last position at which a condition has been seen to hold, and the next one to be looked at or
`size`. From each position the search goes on to the one after its double.
-/
def leap (holds : Nat → Bool) (size last next : Nat) : Nat × Nat :=
  if h : next < size then
    if holds next then leap holds size next (2 * next + 1) else (last, next)
  else (last, size)
termination_by size - next
decreasing_by omega

/-- Whether the element at a position satisfies a condition. -/
def holdsAt (p : α → Bool) (as : List α) (i : Nat) : Bool :=
  as[i]?.any p

/-- The number of elements at the start of a run that satisfy a condition, by galloping. -/
def gallop (d : Direction) (p : α → Bool) (run : List α) : Nat :=
  if holdsAt p run 0 then
    match leap (holdsAt p run) run.length 0 1 with
    | (last, next) => bisect d (holdsAt p run) (last + 1) next
  else 0

end Worklog.Sorting
