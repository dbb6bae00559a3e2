import Worklog.Sorting.Gallop

/-!
# Merging two runs

Two adjacent runs become one. Elements come from the heads of the runs one by one, until one run
has come first as often in a row as the patience of the sort allows; from then on whole blocks,
found by galloping, come from each run in turn, for as long as the blocks are long. Long blocks
lower the patience, the return to single elements raises it, and it stays so for the merges that
follow. The shorter run fixes the end from which the runs are read. The merged run holds what the
two held (`merge_perm`).
-/

namespace Worklog.Sorting

variable {α : Type}

/-- The runs of a merge: `first` stands before `second` in the direction of reading. -/
inductive Side where
  | first
  | second
  deriving DecidableEq

/-- Whether a list has one element. -/
def isSingle : List α → Bool
  | [_] => true
  | _ => false

/--
What a merge comes to without another comparison: one run is used up, or the shorter run is down
to its last element, which then stands behind all that is left of the other.
-/
def settled? (short : Side) (xs ys : List α) : Option (List α) :=
  if xs.isEmpty || short == .second && isSingle ys then some (xs ++ ys)
  else if ys.isEmpty || short == .first && isSingle xs then some (ys ++ xs)
  else none

/-- What a merge does next. -/
inductive Pace where
  /-- Takes the head that comes first; how often in a row each run has had it. -/
  | single (firstWins secondWins : Nat)
  /-- Takes the block of the first run that comes before the head of the second. -/
  | firstBlock
  /-- Takes the head of the second run, after a block of the given length. -/
  | secondHead (block : Nat)
  /-- Takes the block of the second run that comes before the head of the first. -/
  | secondBlock (block : Nat)
  /-- Takes the head of the first run, after two blocks, the longer of the given length. -/
  | firstHead (block : Nat)
  /-- Decides, after two blocks, the longer of the given length, how to go on. -/
  | weigh (block : Nat)

/-- The number of steps a merge may take before it takes an element, at the most. -/
def Pace.delay : Pace → Nat
  | .single .. | .secondHead _ | .firstHead _ => 0
  | .firstBlock | .secondBlock _ => 1
  | .weigh _ => 2

/-- The blocks at least this long are worth galloping for, and the patience at the beginning. -/
def longBlock : Nat := 7

/-- Goes on by single elements, unless one run has had the head as often as the patience allows. -/
def Pace.ofWins (patience firstWins secondWins : Nat) : Pace :=
  if max firstWins secondWins < patience then .single firstWins secondWins else .firstBlock

theorem Pace.delay_single (firstWins secondWins : Nat) :
    (Pace.single firstWins secondWins).delay = 0 :=
  rfl

theorem Pace.delay_ofWins (patience firstWins secondWins : Nat) :
    (Pace.ofWins patience firstWins secondWins).delay ≤ 1 := by
  unfold ofWins
  split <;> simp [delay]

/-- Puts a block before what follows it. -/
def leading (block : List α) : List α × Nat → List α × Nat
  | (rest, patience) => (block ++ rest, patience)

/--
Merges two runs that are read in one direction, and gives the patience it ends with. `second y x`
says that the head `y` of the second run comes before the head `x` of the first.
-/
def mergeFrom (d : Direction) (short : Side) (second : α → α → Bool) (pace : Pace)
    (patience : Nat) (xs ys : List α) : List α × Nat :=
  match settled? short xs ys with
  | some merged => (merged, patience)
  | none =>
    match xs, ys with
    | x :: xs, y :: ys =>
      match pace with
      | .single m n =>
        if second y x then
          leading [y]
            (mergeFrom d short second (.ofWins patience 0 (n + 1)) patience (x :: xs) ys)
        else
          leading [x]
            (mergeFrom d short second (.ofWins patience (m + 1) 0) patience xs (y :: ys))
      | .firstBlock =>
        let k := gallop d (fun x => !second y x) (x :: xs)
        leading ((x :: xs).take k)
          (mergeFrom d short second (.secondHead k) patience ((x :: xs).drop k) (y :: ys))
      | .secondHead k =>
        leading [y] (mergeFrom d short second (.secondBlock k) patience (x :: xs) ys)
      | .secondBlock k =>
        let l := gallop d (fun y => second y x) (y :: ys)
        leading ((y :: ys).take l)
          (mergeFrom d short second (.firstHead (max k l)) patience (x :: xs) ((y :: ys).drop l))
      | .firstHead k =>
        leading [x] (mergeFrom d short second (.weigh k) patience xs (y :: ys))
      | .weigh k =>
        if longBlock ≤ k then
          mergeFrom d short second .firstBlock (max 1 (patience - 1)) (x :: xs) (y :: ys)
        else
          mergeFrom d short second (.single 0 0) (patience + 1) (x :: xs) (y :: ys)
    | xs, ys => (xs ++ ys, patience)
termination_by 3 * (xs.length + ys.length) + pace.delay
decreasing_by
  · have := Pace.delay_ofWins patience 0 (n + 1)
    simp only [List.length_cons, Pace.delay_single]
    omega
  · have := Pace.delay_ofWins patience (m + 1) 0
    simp only [List.length_cons, Pace.delay_single]
    omega
  all_goals simp only [List.length_cons, List.length_drop, Pace.delay]; omega

theorem settled?_perm {short : Side} {xs ys merged : List α}
    (h : settled? short xs ys = some merged) : merged.Perm (xs ++ ys) := by
  simp only [settled?] at h
  split at h
  · cases h
    exact .refl _
  · split at h
    · cases h
      exact List.perm_append_comm
    · contradiction

theorem leading_perm {block rest whole : List α} {r : List α × Nat} (h : r.1.Perm rest)
    (hw : (block ++ rest).Perm whole) : (leading block r).1.Perm whole :=
  (h.append_left block).trans hw

theorem mergeFrom_perm (d : Direction) (short : Side) (second : α → α → Bool) (pace : Pace)
    (patience : Nat) (xs ys : List α) :
    (mergeFrom d short second pace patience xs ys).1.Perm (xs ++ ys) := by
  fun_induction mergeFrom d short second pace patience xs ys with
  | case1 pace patience xs ys merged h => exact settled?_perm h
  | case2 patience x xs y ys _ m n _ ih =>
    exact leading_perm ih (List.perm_append_comm_assoc [y] (x :: xs) ys)
  | case3 patience x xs y ys _ m n _ ih => exact leading_perm ih (.refl _)
  | case4 patience x xs y ys _ k ih =>
    refine leading_perm ih ?_
    rw [← List.append_assoc, List.take_append_drop]
  | case5 patience x xs y ys _ k ih =>
    exact leading_perm ih (List.perm_append_comm_assoc [y] (x :: xs) ys)
  | case6 patience x xs y ys _ k l ih =>
    refine leading_perm ih ?_
    refine List.perm_append_comm_assoc _ _ _ |>.trans ?_
    rw [List.take_append_drop]
  | case7 patience x xs y ys _ k ih => exact leading_perm ih (.refl _)
  | case8 patience x xs y ys _ k _ ih => exact ih
  | case9 patience x xs y ys _ k _ ih => exact ih
  | case10 => exact .refl _

/-- The number of elements at the start of a run that stand in place before another run. -/
def placedBefore (before : α → α → Bool) (xs ys : List α) : Nat :=
  match ys.head? with
  | some y => gallop .forward (fun x => !before y x) xs
  | none => xs.length

/-- The number of elements at the end of a run that stand in place behind another run. -/
def placedBehind (before : α → α → Bool) (xs ys : List α) : Nat :=
  match xs.getLast? with
  | some x => gallop .backward (fun y => !before y x) ys.reverse
  | none => ys.length

/--
Merges two runs, the second of which has the first element and the first of which the last: from
the start if the first run is not longer, and else from the end.
-/
def mergeInterlocked (before : α → α → Bool) (patience : Nat) (xs ys : List α) :
    List α × Nat :=
  if xs.length ≤ ys.length then
    leading (ys.take 1)
      (mergeFrom .forward .first before (.single 0 0) patience xs (ys.drop 1))
  else
    match leading (xs.reverse.take 1)
      (mergeFrom .backward .second (fun y x => !before y x) (.single 0 0) patience
        (xs.reverse.drop 1) ys.reverse) with
    | (merged, patience) => (merged.reverse, patience)

/-- Merges two adjacent runs, and gives the patience that the next merge begins with. -/
def merge (before : α → α → Bool) (patience : Nat) (xs ys : List α) : List α × Nat :=
  let start := placedBefore before xs ys
  let finish := ys.length - placedBehind before (xs.drop start) ys
  match mergeInterlocked before patience (xs.drop start) (ys.take finish) with
  | (merged, patience) => (xs.take start ++ merged ++ ys.drop finish, patience)

theorem mergeInterlocked_perm (before : α → α → Bool) (patience : Nat) (xs ys : List α) :
    (mergeInterlocked before patience xs ys).1.Perm (xs ++ ys) := by
  unfold mergeInterlocked
  split
  · refine leading_perm (mergeFrom_perm ..) ?_
    refine (List.perm_append_comm_assoc _ _ _).trans ?_
    rw [List.take_append_drop]
  · refine (List.reverse_perm _).trans (leading_perm (mergeFrom_perm ..) ?_)
    rw [← List.append_assoc, List.take_append_drop]
    exact (List.reverse_perm _).append (List.reverse_perm _)

theorem merge_perm (before : α → α → Bool) (patience : Nat) (xs ys : List α) :
    (merge before patience xs ys).1.Perm (xs ++ ys) := by
  simp only [merge]
  refine (((mergeInterlocked_perm before patience _ _).append_left _).append_right _).trans ?_
  rw [← List.append_assoc, List.take_append_drop, List.append_assoc, List.take_append_drop]

end Worklog.Sorting
