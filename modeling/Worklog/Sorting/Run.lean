import Worklog.Sorting.Gallop

/-!
# Runs

A list is cut into runs that are in order. A run is as long as the list goes up, or goes down at
every step, and then it is turned around. A run that is shorter than a least length takes in the
elements that follow it, each of which is put into its place by bisection. The runs hold what the
list held (`runs_perm`).
-/

namespace Worklog.Sorting

variable {α : Type}

/-- The elements that go on from `last`, none of them before its neighbour, and the rest. -/
def ascending (before : α → α → Bool) (last : α) : List α → List α × List α
  | [] => ([], [])
  | a :: as =>
    if before a last then ([], a :: as)
    else
      match ascending before a as with
      | (run, rest) => (a :: run, rest)

/-- The elements that go on from `last`, each before its neighbour, and the rest. -/
def descending (before : α → α → Bool) (last : α) : List α → List α × List α
  | [] => ([], [])
  | a :: as =>
    if before a last then
      match descending before a as with
      | (run, rest) => (a :: run, rest)
    else ([], a :: as)

/-- The run at the start of a list, in ascending order, and the rest of the list. -/
def firstRun (before : α → α → Bool) : List α → List α × List α
  | [] => ([], [])
  | [a] => ([a], [])
  | a :: b :: as =>
    if before b a then
      match descending before a (b :: as) with
      | (run, rest) => ((a :: run).reverse, rest)
    else
      match ascending before a (b :: as) with
      | (run, rest) => (a :: run, rest)

/-- Puts an element into its place in a run, after all that it does not come before. -/
def insert (before : α → α → Bool) (run : List α) (a : α) : List α :=
  let i := bisect .forward (holdsAt (fun b => !before a b) run) 0 run.length
  run.take i ++ a :: run.drop i

/-- A run that takes in elements from the rest of the list until it has the least length. -/
def extend (before : α → α → Bool) (least : Nat) (run rest : List α) : List α × List α :=
  let missing := least - run.length
  ((rest.take missing).foldl (insert before) run, rest.drop missing)

theorem ascending_append (before : α → α → Bool) (last : α) (as : List α) :
    (ascending before last as).1 ++ (ascending before last as).2 = as := by
  induction as generalizing last with
  | nil => rfl
  | cons a as ih =>
    unfold ascending
    split
    · rfl
    · simp [ih a]

theorem descending_append (before : α → α → Bool) (last : α) (as : List α) :
    (descending before last as).1 ++ (descending before last as).2 = as := by
  induction as generalizing last with
  | nil => rfl
  | cons a as ih =>
    unfold descending
    split
    · simp [ih a]
    · rfl

theorem firstRun_perm (before : α → α → Bool) (as : List α) :
    ((firstRun before as).1 ++ (firstRun before as).2).Perm as := by
  match as with
  | [] => exact .refl _
  | [a] => exact .refl _
  | a :: b :: as =>
    by_cases h : before b a
    · simp only [firstRun, if_pos h]
      refine ((List.reverse_perm _).append_right _).trans ?_
      rw [List.cons_append, descending_append]
    · simp only [firstRun, if_neg h]
      rw [List.cons_append, ascending_append]

theorem firstRun_ne_nil (before : α → α → Bool) (a : α) (as : List α) :
    (firstRun before (a :: as)).1 ≠ [] := by
  match as with
  | [] => simp [firstRun]
  | b :: as => by_cases h : before b a <;> simp [firstRun, h]

theorem insert_perm (before : α → α → Bool) (run : List α) (a : α) :
    (insert before run a).Perm (run ++ [a]) := by
  refine List.perm_middle.trans ?_
  rw [List.take_append_drop]
  exact (List.perm_append_singleton a run).symm

theorem foldl_insert_perm (before : α → α → Bool) (as run : List α) :
    (as.foldl (insert before) run).Perm (run ++ as) := by
  induction as generalizing run with
  | nil => simp
  | cons a as ih =>
    refine (ih _).trans (((insert_perm before run a).append_right as).trans ?_)
    simp

theorem extend_perm (before : α → α → Bool) (least : Nat) (run rest : List α) :
    ((extend before least run rest).1 ++ (extend before least run rest).2).Perm (run ++ rest) := by
  refine ((foldl_insert_perm before _ _).append_right _).trans ?_
  simp only [extend]
  rw [List.append_assoc, List.take_append_drop]

theorem length_extend_snd_lt (before : α → α → Bool) (least : Nat) (a : α) (as : List α) :
    (extend before least (firstRun before (a :: as)).1 (firstRun before (a :: as)).2).2.length <
      (a :: as).length := by
  have h := (firstRun_perm before (a :: as)).length_eq
  have := List.length_pos_iff.2 (firstRun_ne_nil before a as)
  rw [List.length_append] at h
  simp only [extend, List.length_drop]
  omega

/-- The runs of a list, each of at least the given length but perhaps the last. -/
def runs (before : α → α → Bool) (least : Nat) : List α → List (List α)
  | [] => []
  | a :: as =>
    (extend before least (firstRun before (a :: as)).1 (firstRun before (a :: as)).2).1 ::
      runs before least
        (extend before least (firstRun before (a :: as)).1 (firstRun before (a :: as)).2).2
termination_by as => as.length
decreasing_by exact length_extend_snd_lt before least a as

theorem runs_perm (before : α → α → Bool) (least : Nat) (as : List α) :
    (runs before least as).flatten.Perm as := by
  fun_induction runs before least as with
  | case1 => exact .refl _
  | case2 a as ih =>
    rw [List.flatten_cons]
    refine (ih.append_left _).trans ?_
    exact (extend_perm before least _ _).trans (firstRun_perm before (a :: as))

/--
The least length of the runs of a list: all of a list of fewer than sixty-four elements, and else
the six leading binary digits of the length, one more if any other digit is set.
-/
def leastLength (length : Nat) (dropped : Nat) : Nat :=
  if length < 64 then length + dropped
  else leastLength (length / 2) (max dropped (length % 2))
termination_by length

end Worklog.Sorting
