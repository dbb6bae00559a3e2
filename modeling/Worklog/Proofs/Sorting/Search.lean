import Mathlib.Data.List.TakeWhile
import Worklog.Sorting

/-!
# Searching a run

In a run in which a condition holds at the start (`Initial`), both searches count the elements
that satisfy it: bisection (`Initial.bisect_eq`) and galloping (`Initial.gallop_eq`), from
whichever end they begin.
-/

namespace Worklog.Sorting

variable {α : Type}

/-- The condition, where it holds at all, holds at the start of the list. -/
def Initial (p : α → Bool) (run : List α) : Prop :=
  run.Pairwise fun a b => p b = true → p a = true

theorem Initial.tail {p : α → Bool} {a : α} {as : List α} (h : Initial p (a :: as)) :
    Initial p as :=
  (List.pairwise_cons.1 h).2

/-- The condition holds at the positions below the number of elements at the start. -/
theorem Initial.holdsAt_iff {p : α → Bool} {run : List α} (h : Initial p run) (i : Nat) :
    holdsAt p run i = decide (i < (run.takeWhile p).length) := by
  induction run generalizing i with
  | nil => simp [holdsAt]
  | cons a as ih =>
    cases hp : p a with
    | true =>
      cases i with
      | zero => simp [holdsAt, hp]
      | succ i =>
        have := ih h.tail i
        simp only [holdsAt, List.getElem?_cons_succ] at this ⊢
        rw [this]
        simp [hp]
    | false =>
      have hnone : ∀ b ∈ as, p b = false := by
        intro b hb
        have := (List.pairwise_cons.1 h).1 b hb
        cases hq : p b with
        | false => rfl
        | true => rw [this hq] at hp; cases hp
      simp only [List.takeWhile_cons, hp, Bool.false_eq_true, if_false, List.length_nil,
        Nat.not_lt_zero, decide_false]
      cases i with
      | zero => simp [holdsAt, hp]
      | succ i =>
        simp only [holdsAt, List.getElem?_cons_succ]
        cases hi : as[i]? with
        | none => rfl
        | some b => exact hnone b (List.mem_of_getElem? hi)

/-- Bisection finds the first position that is not below `k`. -/
theorem bisect_lt (d : Direction) {k low high : Nat} (hl : low ≤ k) (hh : k ≤ high) :
    bisect d (fun i => decide (i < k)) low high = k := by
  fun_induction bisect d (fun i => decide (i < k)) low high with
  -- `k` stays between `low` and `high`, which is all that bisection needs.
  | case1 low high h hm ih =>
    have := of_decide_eq_true hm
    exact ih (by omega) hh
  | case2 low high h hm ih =>
    have := of_decide_eq_false (Bool.eq_false_iff.2 hm)
    exact ih hl (by omega)
  | case3 low high h => omega

/-- Leaps end with `k` between the last position that was below it and the next. -/
theorem leap_lt {k size last next : Nat} (hk : k ≤ size) (hlast : last < k) :
    (leap (fun i => decide (i < k)) size last next).1 < k ∧
      k ≤ (leap (fun i => decide (i < k)) size last next).2 := by
  fun_induction leap (fun i => decide (i < k)) size last next with
  | case1 last next h hn ih => exact ih (of_decide_eq_true hn)
  | case2 last next h hn =>
    have := of_decide_eq_false (Bool.eq_false_iff.2 hn)
    exact ⟨hlast, by omega⟩
  | case3 last next h => exact ⟨hlast, hk⟩

theorem Initial.bisect_eq {p : α → Bool} {run : List α} (h : Initial p run) (d : Direction) :
    bisect d (holdsAt p run) 0 run.length = (run.takeWhile p).length := by
  rw [funext h.holdsAt_iff]
  exact bisect_lt d (Nat.zero_le _) (List.takeWhile_prefix p).length_le

theorem Initial.gallop_eq {p : α → Bool} {run : List α} (h : Initial p run) (d : Direction) :
    gallop d p run = (run.takeWhile p).length := by
  have hk : (run.takeWhile p).length ≤ run.length := (List.takeWhile_prefix p).length_le
  unfold gallop
  rw [funext h.holdsAt_iff]
  by_cases h0 : 0 < (run.takeWhile p).length
  · obtain ⟨hlast, hnext⟩ := @leap_lt _ _ 0 1 hk h0
    simp only [h0, decide_true, if_true]
    exact bisect_lt d hlast hnext
  · simp only [h0, decide_false, Bool.false_eq_true, if_false]
    omega

theorem Initial.take_gallop {p : α → Bool} {run : List α} (h : Initial p run) (d : Direction) :
    run.take (gallop d p run) = run.takeWhile p := by
  rw [h.gallop_eq d]
  exact (List.prefix_iff_eq_take.1 (List.takeWhile_prefix p)).symm

theorem Initial.drop_gallop {p : α → Bool} {run : List α} (h : Initial p run) (d : Direction) :
    run.drop (gallop d p run) = run.dropWhile p := by
  have hd : (run.takeWhile p ++ run.dropWhile p).drop (run.takeWhile p).length = run.dropWhile p :=
    List.drop_left
  rwa [List.takeWhile_append_dropWhile, ← h.gallop_eq d] at hd

/-- Behind the elements at the start that satisfy the condition, none does. -/
theorem Initial.of_mem_dropWhile {p : α → Bool} {run : List α} (h : Initial p run) {a : α}
    (ha : a ∈ run.dropWhile p) : p a = false := by
  induction run with
  | nil => cases ha
  | cons b bs ih =>
    cases hp : p b with
    | true =>
      rw [List.dropWhile_cons_of_pos hp] at ha
      exact ih h.tail ha
    | false =>
      cases hq : p a with
      | false => rfl
      | true =>
        rw [List.dropWhile_cons_of_neg (by simp [hp])] at ha
        rcases List.mem_cons.1 ha with rfl | ha
        · rw [hp] at hq; cases hq
        · rw [(List.pairwise_cons.1 h).1 a ha hq] at hp; cases hp

end Worklog.Sorting
