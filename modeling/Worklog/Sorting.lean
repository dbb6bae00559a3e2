import Worklog.Sorting.Run
import Worklog.Sorting.Merge

/-!
# Sorting

A stable sort that is fixed for every comparison, even one that does not order its elements: the
list is cut into runs, and adjacent runs are merged. Entries whose rates are not numbers are why
the comparison may fail to order them. Which runs are merged first hangs on their midpoints only:
each boundary of two runs has a power, the depth at which repeated halving of the list parts the
midpoints, and a boundary is merged before those of lower power. Whatever the comparison, the
sorted list holds what the list held (`sort_perm`).
-/

namespace Worklog.Sorting

variable {α : Type}

/--
The power of the boundary of two runs of a list: the least number of halvings that parts their
midpoints. The midpoints are given doubled.
-/
def boundaryPower (length first second : Nat) : Nat :=
  let parts (k : Nat) := (first <<< k) / length != (second <<< k) / length
  ((List.range length).find? parts).getD length

/-- The runs of a sort that are not merged yet. -/
structure Pending (α : Type) where
  /-- The last run. -/
  top : List α
  /-- The runs before the last, the nearest first, each with the power of the boundary behind it. -/
  below : List (List α × Nat)
  /-- What the next merge has for patience. -/
  patience : Nat

/-- Merges the last run into those before it, as long as the boundaries have a greater power. -/
def mergeAbove (before : α → α → Bool) (power : Nat) (top : List α) (patience : Nat) :
    List (List α × Nat) → Pending α
  | [] => ⟨top, [], patience⟩
  | (run, p) :: below =>
    if power < p then
      match merge before patience run top with
      | (top, patience) => mergeAbove before power top patience below
    else ⟨top, (run, p) :: below, patience⟩

/-- Takes in the next run, after the merges that its boundary asks for. -/
def Pending.push (before : α → α → Bool) (power : Nat) (p : Pending α) (run : List α) :
    Pending α :=
  match mergeAbove before power p.top p.patience p.below with
  | ⟨top, below, patience⟩ => ⟨run, (top, power) :: below, patience⟩

/-- Takes in all runs that follow the last one, which begins at `start`. -/
def Pending.pushAll (before : α → α → Bool) (length start : Nat) (p : Pending α) :
    List (List α) → Pending α
  | [] => p
  | run :: runs =>
    let next := start + p.top.length
    let power := boundaryPower length (start + next) (next + (next + run.length))
    (p.push before power run).pushAll before length next runs

/--
Merges all that is pending, the last run first: two runs at the end, or the two before the last
if that makes for more even lengths.
-/
def collapse (before : α → α → Bool) (patience : Nat) : List (List α) → List α
  | [] => []
  | [run] => run
  | [c, b] => (merge before patience b c).1
  | c :: b :: a :: below =>
    if a.length < c.length then
      match merge before patience a b with
      | (run, patience) => collapse before patience (c :: run :: below)
    else
      match merge before patience b c with
      | (run, patience) => collapse before patience (run :: a :: below)
termination_by runs => runs.length

/-- Sorts a list; elements that do not come before each other keep their order. -/
def sort (before : α → α → Bool) (as : List α) : List α :=
  match runs before (leastLength as.length 0) as with
  | [] => []
  | run :: runs =>
    match Pending.pushAll before as.length 0 ⟨run, [], longBlock⟩ runs with
    | ⟨top, below, patience⟩ => collapse before patience (top :: below.map Prod.fst)

/-- What pending runs hold. -/
def Pending.contents (p : Pending α) : List α :=
  (p.below.map Prod.fst).flatten ++ p.top

theorem mergeAbove_perm (before : α → α → Bool) (power : Nat) (top : List α) (patience : Nat)
    (below : List (List α × Nat)) :
    (mergeAbove before power top patience below).contents.Perm
      (Pending.contents ⟨top, below, patience⟩) := by
  fun_induction mergeAbove before power top patience below with
  | case1 => exact .refl _
  | case2 top patience run p below _ merged q hm ih =>
    refine ih.trans ?_
    have := merge_perm before patience run top
    rw [hm] at this
    simp only [Pending.contents, List.map_cons, List.flatten_cons, List.append_assoc]
    exact (this.append_left _).trans (List.perm_append_comm_assoc _ _ _)
  | case3 => exact .refl _

theorem Pending.push_perm (before : α → α → Bool) (power : Nat) (p : Pending α) (run : List α) :
    (p.push before power run).contents.Perm (p.contents ++ run) := by
  refine List.Perm.append_right run (List.Perm.trans ?_
    (mergeAbove_perm before power p.top p.patience p.below))
  exact List.perm_append_comm

theorem Pending.pushAll_perm (before : α → α → Bool) (length start : Nat) (p : Pending α)
    (runs : List (List α)) :
    (p.pushAll before length start runs).contents.Perm (p.contents ++ runs.flatten) := by
  induction runs generalizing start p with
  | nil => simp [pushAll]
  | cons run runs ih =>
    refine (ih _ _).trans (((push_perm before _ p run).append_right _).trans ?_)
    simp

theorem collapse_perm (before : α → α → Bool) (patience : Nat) (runs : List (List α)) :
    (collapse before patience runs).Perm runs.flatten := by
  fun_induction collapse before patience runs with
  | case1 => exact .refl _
  | case2 => simp
  | case3 patience c b =>
    refine (merge_perm before patience b c).trans ?_
    simpa using List.perm_append_comm
  | case4 patience c b a below h run p hm ih =>
    refine ih.trans ?_
    have := merge_perm before patience a b
    rw [hm] at this
    simp only [List.flatten_cons]
    refine ((this.trans List.perm_append_comm).append_right _ |>.append_left _).trans ?_
    simp
  | case5 patience c b a below h run p hm ih =>
    refine ih.trans ?_
    have := merge_perm before patience b c
    rw [hm] at this
    simp only [List.flatten_cons]
    refine ((this.trans List.perm_append_comm).append_right _).trans ?_
    simp

theorem sort_perm (before : α → α → Bool) (as : List α) : (sort before as).Perm as := by
  have h := runs_perm before (leastLength as.length 0) as
  unfold sort
  split
  · rename_i hr
    simpa [hr] using h
  · rename_i run runs hr
    rw [hr] at h
    refine (collapse_perm ..).trans (.trans ?_ h)
    have hp := Pending.pushAll_perm before as.length 0 ⟨run, [], longBlock⟩ runs
    simp only [Pending.contents, List.map_nil, List.flatten_nil, List.nil_append] at hp
    exact List.perm_append_comm.trans hp

end Worklog.Sorting
